import Mathlib.Data.Finset.Card
import DpdkEcho.Properties.ArpResolution
import DpdkEcho.Properties.Frames

/-!
# The source addresses of the clients

With `--zipf-client-addr total/ports/zipf` a rank is split into a quotient, which is added to the
source address, and a remainder, which is added to the source port.

* `selectClientAddr_zipf`: the split
* `zipf_client_addrs_iff`: when every rank gets an address of its own
-/

namespace DpdkEcho

open Infra

/-! ## The split -/

section
variable {info : PreparePacketInfo} {rank : Int}

/-- The index of a rank, a `uint32_t`. -/
def srcIdx (rank : Int) : Nat := (UInt32.ofInt (rank - 1)).toNat

/-- The address of a rank: quotient and remainder of its index. -/
def addrOfRank (info : PreparePacketInfo) (rank : Int) : UInt32 × UInt16 :=
  (info.srcIp + UInt32.ofNat (srcIdx rank / info.countPort.toNat),
    info.srcPort + UInt16.ofNat (srcIdx rank % info.countPort.toNat))

theorem selectClientAddr_zero (hz : info.clientAddressSelection = .zipfClientAddr)
    (hp : info.countPort = 0) : selectClientAddr info rank = none := by
  simp only [selectClientAddr, hz]
  rw [if_pos hp]

/-- **The split of a rank.** The two steps of the source through `uint64_t` and `uint32_t` lose
nothing. -/
theorem selectClientAddr_zipf (hz : info.clientAddressSelection = .zipfClientAddr)
    (hp : info.countPort ≠ 0) :
    selectClientAddr info rank = some { info with
      srcIp := (addrOfRank info rank).1, srcPort := (addrOfRank info rank).2 } := by
  have hip : ((UInt32.ofInt (rank - 1)).toUInt64 / info.countPort).toUInt32
      = UInt32.ofNat (srcIdx rank / info.countPort.toNat) := by
    apply UInt32.toNat_inj.mp
    simp [srcIdx]
  have hport : (info.srcPort.toUInt32 +
        ((UInt32.ofInt (rank - 1)).toUInt64 % info.countPort).toUInt32).toUInt16
      = info.srcPort + UInt16.ofNat (srcIdx rank % info.countPort.toNat) := by
    apply UInt16.toNat_inj.mp
    simp [srcIdx]
  simp only [selectClientAddr, hz, if_neg hp, hip, hport, addrOfRank]

end

/-! ## Distinct addresses -/

section
variable {id : Nat} {mem : Mem} {info : PreparePacketInfo} {total : UInt32}

/-- The ranks `1 .. total`. -/
def ranks (total : UInt32) : Finset Int :=
  (Finset.range total.toNat).image fun k : Nat => (k : Int) + 1

theorem mem_ranks {rank : Int} : rank ∈ ranks total ↔ 1 ≤ rank ∧ rank ≤ total.toNat := by
  simp only [ranks, Finset.mem_image, Finset.mem_range]
  constructor
  · rintro ⟨k, hk, rfl⟩
    omega
  · rintro ⟨h1, h2⟩
    exact ⟨(rank - 1).toNat, by omega, by omega⟩

/-- The source address and port that `_prepare_eth_vlan_ip` gives a packet in a fresh buffer. -/
def sourceAddr (id : Nat) (mem : Mem) (info : PreparePacketInfo) (rank : Int) :
    Option (UInt32 × UInt16) :=
  (prepareEthVlanIp (Mbuf.alloc id mem) info rank).map fun r => (r.2.1.srcIp, r.2.1.srcPort)

/-- Every rank gets an address, and there are as many addresses as ranks. -/
structure AddrsDistinct (id : Nat) (mem : Mem) (info : PreparePacketInfo) (total : UInt32) :
    Prop where
  defined : ∀ rank ∈ ranks total, (sourceAddr id mem info rank).isSome
  card : ((ranks total).image (sourceAddr id mem info)).card = total.toNat

theorem ranks_card (total : UInt32) : (ranks total).card = total.toNat := by
  rw [ranks, Finset.card_image_of_injective _ fun a b h => by simpa using h, Finset.card_range]

theorem srcIdx_of_mem {rank : Int} (h : rank ∈ ranks total) : (srcIdx rank : Int) = rank - 1 := by
  obtain ⟨h1, h2⟩ := mem_ranks.mp h
  have ht := total.toNat_lt
  rw [srcIdx, toNat_uint32_ofInt]
  omega

theorem sourceAddr_zero (hz : info.clientAddressSelection = .zipfClientAddr)
    (hp : info.countPort = 0) (rank : Int) : sourceAddr id mem info rank = none := by
  rw [sourceAddr, prepareEthVlanIp_none id mem (selectClientAddr_zero hz hp)]
  rfl

theorem sourceAddr_zipf (hz : info.clientAddressSelection = .zipfClientAddr)
    (hp : info.countPort ≠ 0) (rank : Int) :
    sourceAddr id mem info rank = some (addrOfRank info rank) := by
  rw [sourceAddr, prepareEthVlanIp_alloc id mem (selectClientAddr_zipf hz hp)]
  rfl

/-- Up to 65536 ports, quotient and remainder of an index can be read off its address. -/
theorem addrOfRank_injOn (hp : info.countPort ≠ 0) (hle : info.countPort.toNat ≤ 65536) :
    Set.InjOn (addrOfRank info) (ranks total) := by
  intro r hr r' hr' heq
  have hpos : 0 < info.countPort.toNat :=
    Nat.pos_of_ne_zero fun h => hp (UInt64.toNat_inj.mp h)
  have hlt : ∀ rank, srcIdx rank / info.countPort.toNat < 2 ^ 32 := fun rank =>
    lt_of_le_of_lt (Nat.div_le_self _ _) (UInt32.toNat_lt _)
  have hrem : ∀ rank, srcIdx rank % info.countPort.toNat < 2 ^ 16 := fun rank =>
    lt_of_lt_of_le (Nat.mod_lt _ hpos) hle
  have hquot : srcIdx r / info.countPort.toNat = srcIdx r' / info.countPort.toNat := by
    have hip := UInt32.add_right_inj info.srcIp |>.mp (congrArg Prod.fst heq)
    have hnat := congrArg UInt32.toNat hip
    rwa [UInt32.toNat_ofNat_of_lt' (hlt r), UInt32.toNat_ofNat_of_lt' (hlt r')] at hnat
  have hmod : srcIdx r % info.countPort.toNat = srcIdx r' % info.countPort.toNat := by
    have hport := UInt16.add_right_inj info.srcPort |>.mp (congrArg Prod.snd heq)
    have hnat := congrArg UInt16.toNat hport
    rwa [UInt16.toNat_ofNat_of_lt' (hrem r), UInt16.toNat_ofNat_of_lt' (hrem r')] at hnat
  have hidx : srcIdx r = srcIdx r' := by
    rw [← Nat.div_add_mod (srcIdx r) info.countPort.toNat, hquot, hmod, Nat.div_add_mod]
  have h1 := srcIdx_of_mem (Finset.mem_coe.mp hr)
  have h2 := srcIdx_of_mem (Finset.mem_coe.mp hr')
  omega

/-- Beyond that the port comes around: the ranks 1 and 65537 get the same address. -/
theorem addrOfRank_collision (hlt : 65536 < info.countPort.toNat) :
    addrOfRank info 1 = addrOfRank info 65537 := by
  have h1 : srcIdx 1 = 0 := by decide
  have h2 : srcIdx 65537 = 65536 := by decide
  rw [addrOfRank, addrOfRank, h1, h2, Nat.zero_div, Nat.zero_mod, Nat.div_eq_of_lt hlt,
    Nat.mod_eq_of_lt hlt]
  rfl

/-- For a configuration with at most as many ports as addresses. -/
theorem addrsDistinct_iff (hz : info.clientAddressSelection = .zipfClientAddr)
    (hle : info.countPort.toNat ≤ total.toNat) :
    AddrsDistinct id mem info total ↔
      total = 0 ∨ (1 ≤ info.countPort.toNat ∧ info.countPort.toNat ≤ 65536) := by
  constructor
  · rintro ⟨hdef, hcard⟩
    by_cases h0 : total = 0
    · exact Or.inl h0
    have hne : total.toNat ≠ 0 := fun h => h0 (UInt32.toNat_inj.mp h)
    have hfirst : (1 : Int) ∈ ranks total := mem_ranks.mpr (by omega)
    have hp : info.countPort ≠ 0 := by
      intro hp
      have hsome := hdef 1 hfirst
      rw [sourceAddr_zero hz hp] at hsome
      cases hsome
    have hpos : info.countPort.toNat ≠ 0 := fun h => hp (UInt64.toNat_inj.mp h)
    refine Or.inr ⟨by omega, ?_⟩
    by_contra hmany
    rw [← ranks_card] at hcard
    have hlast : (65537 : Int) ∈ ranks total := mem_ranks.mpr (by omega)
    have hsame : sourceAddr id mem info 1 = sourceAddr id mem info 65537 := by
      rw [sourceAddr_zipf hz hp, sourceAddr_zipf hz hp, addrOfRank_collision (not_le.mp hmany)]
    have := Finset.card_image_iff.mp hcard hfirst hlast hsame
    omega
  · rintro (rfl | ⟨hpos, hmax⟩)
    · exact ⟨by simp [ranks], by simp [ranks]⟩
    · have hp : info.countPort ≠ 0 := by
        intro hp
        rw [hp] at hpos
        simp at hpos
      refine ⟨fun rank _ => by rw [sourceAddr_zipf hz hp]; rfl, ?_⟩
      have hinj : Set.InjOn (sourceAddr id mem info) (ranks total) := by
        intro r hr r' hr' heq
        rw [sourceAddr_zipf hz hp, sourceAddr_zipf hz hp] at heq
        exact addrOfRank_injOn hp hmax hr hr' (Option.some.inj heq)
      rw [Finset.card_image_iff.mpr hinj, ranks_card]

end

/-! ## The option -/

/-- What an accepted argument leaves in the configuration. -/
theorem parseZipfClientAddrArg_ok {atof : CStr → ℚ} {c c' : ClientConfig} {arg : CStr}
    (h : parseZipfClientAddrArg atof c arg = .ok c') :
    c'.selectSrcIp = true ∧ c'.uniqueClientPorts ≤ c'.uniqueClientAddresses := by
  unfold parseZipfClientAddrArg at h
  split at h
  · cases h
  split at h
  · cases h
  split at h
  · cases h
  simp only [] at h
  split at h
  · cases h
  · next hle =>
    cases h
    exact ⟨rfl, UInt32.not_lt.mp hle⟩

/--
**Every rank has an address of its own exactly when the ports fit a 16-bit port number.** The
condition also excludes a port count of zero, which the parser accepts and the split divides by.
With no addresses there are no ranks.
-/
theorem zipf_client_addrs_iff (atof : CStr → ℚ) (c c' : ClientConfig) (arg : CStr)
    (h : parseZipfClientAddrArg atof c arg = .ok c') (cntx : Context) (serverEth : EtherAddr)
    (dstIp : UInt32) (dstPort tci : UInt16) (id : Nat) (mem : Mem) :
    AddrsDistinct id mem (pktInfo c' cntx serverEth dstIp dstPort tci) c'.uniqueClientAddresses ↔
      c'.uniqueClientAddresses = 0 ∨
        (1 ≤ c'.uniqueClientPorts.toNat ∧ c'.uniqueClientPorts.toNat ≤ 65536) := by
  obtain ⟨hsel, hle⟩ := parseZipfClientAddrArg_ok h
  have hz : (pktInfo c' cntx serverEth dstIp dstPort tci).clientAddressSelection
      = .zipfClientAddr := by
    simp [pktInfo, hsel]
  have hcount : (pktInfo c' cntx serverEth dstIp dstPort tci).countPort.toNat
      = c'.uniqueClientPorts.toNat := by
    simp [pktInfo]
  have hle' := UInt32.le_iff_toNat_le.mp hle
  rw [addrsDistinct_iff hz (by rw [hcount]; exact hle'), hcount]

/-- The configuration after `--zipf-client-addr total/ports/0`. -/
def zipfClient (total ports : UInt32) : ClientConfig :=
  { defaultConfig.client with
    selectSrcIp := true, uniqueClientAddresses := total, uniqueClientPorts := ports }

/-- `--zipf-client-addr 10/5/0` -/
theorem zipf_client_addrs_ten :
    parseZipfClientAddrArg (fun _ => 0) defaultConfig.client "10/5/0".toList
      = .ok (zipfClient 10 5) ∧
    AddrsDistinct 0 (fun _ => 0)
      (pktInfo (zipfClient 10 5) (sampleClient []) broadcastMac 0 0 0) 10 := by
  have hok : parseZipfClientAddrArg (fun _ => 0) defaultConfig.client "10/5/0".toList
      = .ok (zipfClient 10 5) := rfl
  exact ⟨hok, (zipf_client_addrs_iff _ _ _ _ hok _ _ _ _ _ _ _).mpr (Or.inr (by decide))⟩

/-- `--zipf-client-addr 4/0/0`: the argument is accepted, and the first rank divides by zero.
`--zipf-client-addr 70000/70000/0`: it is accepted, and two ranks get the same address. -/
theorem zipf_client_addrs_fail :
    (parseZipfClientAddrArg (fun _ => 0) defaultConfig.client "4/0/0".toList
        = .ok (zipfClient 4 0) ∧
      sourceAddr 0 (fun _ => 0)
        (pktInfo (zipfClient 4 0) (sampleClient []) broadcastMac 0 0 0) 1 = none ∧
      ¬ AddrsDistinct 0 (fun _ => 0)
        (pktInfo (zipfClient 4 0) (sampleClient []) broadcastMac 0 0 0) 4) ∧
    (parseZipfClientAddrArg (fun _ => 0) defaultConfig.client "70000/70000/0".toList
        = .ok (zipfClient 70000 70000) ∧
      sourceAddr 0 (fun _ => 0)
          (pktInfo (zipfClient 70000 70000) (sampleClient []) broadcastMac 0 0 0) 1
        = sourceAddr 0 (fun _ => 0)
          (pktInfo (zipfClient 70000 70000) (sampleClient []) broadcastMac 0 0 0) 65537 ∧
      ¬ AddrsDistinct 0 (fun _ => 0)
        (pktInfo (zipfClient 70000 70000) (sampleClient []) broadcastMac 0 0 0) 70000) := by
  refine ⟨⟨rfl, sourceAddr_zero rfl rfl 1, ?_⟩, rfl, ?_, ?_⟩
  · rw [addrsDistinct_iff rfl (by decide)]
    decide
  · have hp : (pktInfo (zipfClient 70000 70000) (sampleClient []) broadcastMac 0 0
        0).countPort ≠ 0 := by decide
    rw [sourceAddr_zipf rfl hp, sourceAddr_zipf rfl hp, addrOfRank_collision (by decide)]
  · rw [addrsDistinct_iff rfl (by decide)]
    decide

end DpdkEcho
