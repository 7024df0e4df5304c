import DpdkEcho.Infra.OnesComplement
import DpdkEcho.Properties.ServerBurst

/-!
# The checksums of an echoed frame

The echo does not recompute a checksum. It need not: it only lets 16-bit words change places, and
the sums do not depend on the order of their words.

* `echoRewrite_byte`: where each byte of the echo comes from
* `echoRewrite_twice`: the echo of the echo is the frame
* `echo_headerSum`, `echo_transportSum`: the sums that checksums are made of stay
-/

namespace DpdkEcho

open Infra

/-! ## Bytes -/

/-- The offset a byte of the echo comes from, for an IPv4 header at `ip`. -/
def echoSource (ip a : Nat) : Nat :=
  if a < 6 then a + 6
  else if a < 12 then a - 6
  else if ip + 12 ≤ a ∧ a < ip + 16 then a + 4
  else if ip + 16 ≤ a ∧ a < ip + 20 then a - 4
  else if ip + 20 ≤ a ∧ a < ip + 22 then a + 2
  else if ip + 22 ≤ a ∧ a < ip + 24 then a - 2
  else a

theorem l2Len_ge (useVlan : Bool) : 14 ≤ l2Len useVlan := by
  cases useVlan <;> decide

/-- The regions of a frame and what becomes of them. -/
theorem echoSource_cases (ip a : Nat) :
    (a < 6 ∧ echoSource ip a = a + 6) ∨ (6 ≤ a ∧ a < 12 ∧ echoSource ip a = a - 6) ∨
    (12 ≤ a ∧
      ((ip + 12 ≤ a ∧ a < ip + 16 ∧ echoSource ip a = a + 4) ∨
       (ip + 16 ≤ a ∧ a < ip + 20 ∧ echoSource ip a = a - 4) ∨
       (ip + 20 ≤ a ∧ a < ip + 22 ∧ echoSource ip a = a + 2) ∨
       (ip + 22 ≤ a ∧ a < ip + 24 ∧ echoSource ip a = a - 2) ∨
       ((a < ip + 12 ∨ ip + 24 ≤ a) ∧ echoSource ip a = a))) := by
  unfold echoSource
  split_ifs with h1 h2 h3 h4 h5 h6
  · exact Or.inl ⟨h1, rfl⟩
  · exact Or.inr (Or.inl ⟨Nat.le_of_not_lt h1, h2, rfl⟩)
  all_goals refine Or.inr (Or.inr ⟨Nat.le_of_not_lt h2, ?_⟩)
  · exact Or.inl ⟨h3.1, h3.2, rfl⟩
  · exact Or.inr (Or.inl ⟨h4.1, h4.2, rfl⟩)
  · exact Or.inr (Or.inr (Or.inl ⟨h5.1, h5.2, rfl⟩))
  · exact Or.inr (Or.inr (Or.inr (Or.inl ⟨h6.1, h6.2, rfl⟩)))
  · exact Or.inr (Or.inr (Or.inr (Or.inr ⟨by omega, rfl⟩)))

theorem echoSource_twice {ip : Nat} (hip : 14 ≤ ip) (a : Nat) :
    echoSource ip (echoSource ip a) = a := by
  have hback := echoSource_cases ip (echoSource ip a)
  rcases echoSource_cases ip a with
    ⟨h1, he⟩ | ⟨h1, h2, he⟩ |
    ⟨h0, ⟨h1, h2, he⟩ | ⟨h1, h2, he⟩ | ⟨h1, h2, he⟩ | ⟨h1, h2, he⟩ | ⟨h1, he⟩⟩
  all_goals
    rw [he] at hback ⊢
    omega

/-- The three exchanges of `do_server`, as a map of addresses. -/
theorem echoRewrite_swaps (useVlan : Bool) (buf : Mbuf) (a : Nat) :
    (echoRewrite useVlan buf).data a = buf.data (swapAddr 6 0 6
      (swapAddr (l2Len useVlan + 12) (l2Len useVlan + 16) 4
        (swapAddr (l2Len useVlan + 20) (l2Len useVlan + 22) 2 a))) := by
  simp only [echoRewrite, Mbuf.write_data, storeMac_loadMac, store32_load32, store16_load16,
    ethSrcAddr, ethDstAddr, ipSrcAddr, ipDstAddr, ipv4HdrLen, udpSrcPort, udpDstPort]
  rw [store_store_swap (by omega), store_store_swap (by omega), store_store_swap (by omega)]

/-- **Each byte of the echo is a byte of the frame.** -/
theorem echoRewrite_byte (useVlan : Bool) (buf : Mbuf) (a : Nat) :
    (echoRewrite useVlan buf).data a = buf.data (echoSource (l2Len useVlan) a) := by
  have hip := l2Len_ge useVlan
  rw [echoRewrite_swaps]
  generalize l2Len useVlan = ip at hip ⊢
  refine congrArg buf.data ?_
  have hports : a < ip + 20 ∨ ip + 24 ≤ a → swapAddr (ip + 20) (ip + 22) 2 a = a :=
    fun h => swapAddr_of_not_mem (by omega) (by omega)
  have haddrs : ∀ x, x < ip + 12 ∨ ip + 20 ≤ x → swapAddr (ip + 12) (ip + 16) 4 x = x :=
    fun x h => swapAddr_of_not_mem (by omega) (by omega)
  have hmacs : ∀ x, 12 ≤ x → swapAddr 6 0 6 x = x :=
    fun x h => swapAddr_of_not_mem (by omega) (by omega)
  -- every byte is in at most one of the six ranges, so two of the three exchanges pass it by
  rcases echoSource_cases ip a with
    ⟨h1, he⟩ | ⟨h1, h2, he⟩ |
    ⟨h0, ⟨h1, h2, he⟩ | ⟨h1, h2, he⟩ | ⟨h1, h2, he⟩ | ⟨h1, h2, he⟩ | ⟨h1, he⟩⟩
  · rw [he, hports (by omega), haddrs a (by omega),
      swapAddr_of_snd (Nat.zero_le a) (by omega) (by omega)]
    rfl
  · rw [he, hports (by omega), haddrs a (by omega), swapAddr_of_fst h1 h2]
    rfl
  · rw [he, hports (by omega), swapAddr_of_fst h1 (by omega), hmacs _ (by omega)]
    omega
  · rw [he, hports (by omega), swapAddr_of_snd h1 (by omega) (by omega), hmacs _ (by omega)]
    omega
  · rw [he, swapAddr_of_fst h1 (by omega), haddrs _ (by omega), hmacs _ (by omega)]
    omega
  · rw [he, swapAddr_of_snd h1 (by omega) (by omega), haddrs _ (by omega), hmacs _ (by omega)]
    omega
  · rw [he, hports (by omega), haddrs a (by omega), hmacs a h0]

/-- **The echo of the echo is the frame.** -/
theorem echoRewrite_twice (useVlan : Bool) (buf : Mbuf) :
    echoRewrite useVlan (echoRewrite useVlan buf) = buf := by
  have hdata : (echoRewrite useVlan (echoRewrite useVlan buf)).data = buf.data := by
    funext a
    rw [echoRewrite_byte, echoRewrite_byte, echoSource_twice (l2Len_ge useVlan)]
  cases buf
  simp only [echoRewrite, Mbuf.write] at hdata ⊢
  rw [hdata]

/-! ## Sums -/

/-- The header length field of the IPv4 header at `ip`, in words of four bytes. -/
def ihl (m : Mem) (ip : Nat) : Nat := (m (ip + ipVersionIhl)).toNat % 16

/-- The total length field. -/
def totalLength (m : Mem) (ip : Nat) : Nat := loadBE m (ip + ipTotalLength) 2

/-- The sum over the IPv4 header, options included, that is `0xFFFF` for a valid checksum. -/
def headerSum (m : Mem) (ip : Nat) : Nat := onesSum (words m ip (4 * ihl m ip))

/-- The pseudo-header of UDP and TCP: the addresses, the protocol and the length of the segment. -/
def pseudoHeader (m : Mem) (ip : Nat) : List Nat :=
  words m (ip + ipSrcAddr) 4 ++ words m (ip + ipDstAddr) 4 ++
    [(m (ip + ipNextProtoId)).toNat, totalLength m ip - 4 * ihl m ip]

/-- The sum over pseudo-header and segment. -/
def transportSum (m : Mem) (ip : Nat) : Nat :=
  onesSum (pseudoHeader m ip ++ words m (ip + 4 * ihl m ip) (totalLength m ip - 4 * ihl m ip))

/-- The words of an IPv4 header: up to the addresses, the addresses, the options. -/
theorem words_ipv4 (m : Mem) (ip n : Nat) : words m ip (20 + n)
    = words m ip 12 ++ (words m (ip + 12) 4 ++ (words m (ip + 16) 4 ++ words m (ip + 20) n)) := by
  rw [show 20 + n = 2 * 6 + (2 * 2 + (2 * 2 + n)) by omega, words_append, words_append,
    words_append]

theorem words_ports (m : Mem) (off n : Nat) : words m off (4 + n)
    = words m off 2 ++ (words m (off + 2) 2 ++ words m (off + 4) n) := by
  rw [show 4 + n = 2 * 1 + (2 * 1 + n) by omega, words_append, words_append]

/-- A range that is moved as a whole keeps its words. -/
theorem words_moved {m m' : Mem} {ip off off' n : Nat} (hecho : ∀ a, m' a = m (echoSource ip a))
    (h : ∀ i, i < n → echoSource ip (off' + i) = off + i) : words m' off' n = words m off n :=
  words_congr fun i hi => by rw [hecho, h i hi]

section
variable {m m' : Mem} {ip : Nat} (hip : 14 ≤ ip) (hecho : ∀ a, m' a = m (echoSource ip a))
include hip hecho

theorem words_srcAddr : words m' (ip + 12) 4 = words m (ip + 16) 4 := by
  refine words_moved hecho fun i hi => ?_
  have := echoSource_cases ip (ip + 12 + i)
  omega

theorem words_dstAddr : words m' (ip + 16) 4 = words m (ip + 12) 4 := by
  refine words_moved hecho fun i hi => ?_
  have := echoSource_cases ip (ip + 16 + i)
  omega

theorem words_behind {off n : Nat} (h : ip + 24 ≤ off) : words m' off n = words m off n := by
  refine words_moved hecho fun i hi => ?_
  have := echoSource_cases ip (off + i)
  omega

theorem words_front : words m' ip 12 = words m ip 12 := by
  refine words_moved hecho fun i hi => ?_
  have := echoSource_cases ip (ip + i)
  omega

/-- Of the words from the end of the fixed header on, the first two change places. -/
theorem words_ports_perm {n : Nat} (hn : n = 0 ∨ 4 ≤ n) :
    (words m' (ip + 20) n).Perm (words m (ip + 20) n) := by
  rcases hn with rfl | hn
  · exact List.Perm.refl _
  · obtain ⟨k, rfl⟩ : ∃ k, n = 4 + k := ⟨n - 4, by omega⟩
    have hsrc : words m' (ip + 20) 2 = words m (ip + 22) 2 := by
      refine words_moved hecho fun i hi => ?_
      have := echoSource_cases ip (ip + 20 + i)
      omega
    have hdst : words m' (ip + 22) 2 = words m (ip + 20) 2 := by
      refine words_moved hecho fun i hi => ?_
      have := echoSource_cases ip (ip + 22 + i)
      omega
    have hrest : words m' (ip + 24) k = words m (ip + 24) k :=
      words_behind hip hecho (by omega)
    rw [words_ports, words_ports, hsrc, hdst, hrest]
    exact List.perm_append_comm_assoc _ _ _

/-- The fields that say how long the parts of the packet are stay. -/
theorem echo_lengths : ihl m' ip = ihl m ip ∧ totalLength m' ip = totalLength m ip ∧
    m' (ip + ipNextProtoId) = m (ip + ipNextProtoId) := by
  have hsame : ∀ i, i < 12 → m' (ip + i) = m (ip + i) := by
    intro i hi
    have hsource := echoSource_cases ip (ip + i)
    rw [hecho, show echoSource ip (ip + i) = ip + i by omega]
  refine ⟨?_, ?_, hsame ipNextProtoId (by decide)⟩
  · rw [ihl, ihl, hsame ipVersionIhl (by decide)]
  · refine loadBE_congr fun a h1 h2 => ?_
    simp only [ipTotalLength] at h1 h2
    obtain ⟨i, rfl⟩ : ∃ i, a = ip + i := ⟨a - ip, by omega⟩
    exact hsame i (by omega)

/-- **The sum over the IPv4 header stays.** -/
theorem echo_headerSum (h5 : 5 ≤ ihl m ip) : headerSum m' ip = headerSum m ip := by
  rw [headerSum, headerSum, (echo_lengths hip hecho).1]
  refine onesSum_perm (fun w hw => words_lt hw) ?_
  obtain ⟨k, hk⟩ : ∃ k, ihl m ip = k + 5 := ⟨ihl m ip - 5, by omega⟩
  have htail : (words m' (ip + 20) (4 * k)).Perm (words m (ip + 20) (4 * k)) :=
    words_ports_perm hip hecho (by omega)
  rw [hk, show 4 * (k + 5) = 20 + 4 * k by omega, words_ipv4, words_ipv4, words_front hip hecho,
    words_srcAddr hip hecho, words_dstAddr hip hecho]
  exact List.Perm.append_left _ ((List.perm_append_comm_assoc _ _ _).trans
    (List.Perm.append_left _ (List.Perm.append_left _ htail)))

/-- **The sum over pseudo-header and segment stays**, with and without IPv4 options. -/
theorem echo_transportSum (h5 : 5 ≤ ihl m ip) (h4 : 4 * ihl m ip + 4 ≤ totalLength m ip) :
    transportSum m' ip = transportSum m ip := by
  obtain ⟨hihl, htotal, hproto⟩ := echo_lengths hip hecho
  have hlt : totalLength m ip < 2 ^ 16 := loadBE_lt m (ip + ipTotalLength) 2
  have hsegment : (words m' (ip + 4 * ihl m ip) (totalLength m ip - 4 * ihl m ip)).Perm
      (words m (ip + 4 * ihl m ip) (totalLength m ip - 4 * ihl m ip)) := by
    by_cases hopt : ihl m ip = 5
    · rw [hopt]
      exact words_ports_perm hip hecho (by omega)
    · rw [words_behind hip hecho (by omega)]
  have hpseudo : (pseudoHeader m' ip).Perm (pseudoHeader m ip) := by
    simp only [pseudoHeader, ipSrcAddr, ipDstAddr, words_srcAddr hip hecho,
      words_dstAddr hip hecho, hihl, htotal, hproto]
    exact List.Perm.append_right _ List.perm_append_comm
  rw [transportSum, transportSum, hihl, htotal]
  refine onesSum_perm (fun w hw => ?_) (hpseudo.append hsegment)
  have hword := (m' (ip + ipNextProtoId)).toNat_lt
  simp only [pseudoHeader, List.mem_append, List.mem_cons, List.not_mem_nil, or_false] at hw
  rcases hw with ((hw | hw) | (rfl | rfl)) | hw
  · exact words_lt hw
  · exact words_lt hw
  · omega
  · omega
  · exact words_lt hw

end

/--
**What the echo keeps.** A frame that passes the filters is queued with the same sum over its
IPv4 header and the same sum over its segment, so that a valid checksum stays valid. Nothing is
changed outside the MAC addresses, the IPv4 addresses and the two words behind the 20 bytes of
the fixed IPv4 header, and echoing it again would restore it.
-/
theorem echo_preserves_checksums (cntx : Context) (hb : cntx.bidi = true) (now : UInt64)
    (st : EchoState) (buf : Mbuf) (hpass : passesFilters cntx buf = true)
    (h5 : 5 ≤ ihl buf.data (l2Len cntx.useVlan))
    (h4 : 4 * ihl buf.data (l2Len cntx.useVlan) + 4
      ≤ totalLength buf.data (l2Len cntx.useVlan)) :
    ∃ echoed, (echoPacket cntx now st buf).2 = [.storeTx st.k echoed] ∧
      headerSum echoed.data (l2Len cntx.useVlan) = headerSum buf.data (l2Len cntx.useVlan) ∧
      transportSum echoed.data (l2Len cntx.useVlan)
        = transportSum buf.data (l2Len cntx.useVlan) ∧
      (∀ a, 12 ≤ a → (a < l2Len cntx.useVlan + 12 ∨ l2Len cntx.useVlan + 24 ≤ a) →
        echoed.data a = buf.data a) ∧
      echoed.dataLen = buf.dataLen ∧ echoRewrite cntx.useVlan echoed = buf := by
  have hip := l2Len_ge cntx.useVlan
  have hbyte := echoRewrite_byte cntx.useVlan buf
  have hstore : (echoPacket cntx now st buf).2
      = [.storeTx st.k (echoRewrite cntx.useVlan buf)] := by
    rcases echoPacket_cases cntx now st buf with ⟨hp, -⟩ | ⟨-, hb', -⟩ | ⟨-, -, -, -, he⟩
    · rw [hpass] at hp; cases hp
    · rw [hb] at hb'; cases hb'
    · exact he
  refine ⟨_, hstore, echo_headerSum hip hbyte h5, echo_transportSum hip hbyte h5 h4, ?_, rfl,
    echoRewrite_twice cntx.useVlan buf⟩
  intro a h12 hout
  have hsource := echoSource_cases (l2Len cntx.useVlan) a
  rw [hbyte, show echoSource (l2Len cntx.useVlan) a = a by omega]

/-- A packet for `sampleServer` with an IPv4 header of 20 bytes and 26 bytes behind it. -/
def sampleIpv4 : Mbuf :=
  (samplePacket 0).write fun m => store8 (store16 m 16 46) 14 0x45

/-- The echo of that packet has the same sums. -/
theorem echo_preserves_checksums_sample :
    ∃ echoed, (echoPacket sampleServer 0 sampleState.echoStart sampleIpv4).2
        = [.storeTx 0 echoed] ∧
      headerSum echoed.data 14 = 0x4730 ∧ headerSum sampleIpv4.data 14 = 0x4730 ∧
      transportSum echoed.data 14 = transportSum sampleIpv4.data 14 := by
  obtain ⟨echoed, hstore, hheader, htransport, -⟩ := echo_preserves_checksums sampleServer rfl 0
    sampleState.echoStart sampleIpv4 (by decide) (by decide) (by decide)
  have hsum : headerSum sampleIpv4.data 14 = 0x4730 := by decide
  exact ⟨echoed, hstore, hheader.trans hsum, hsum, htransport⟩

end DpdkEcho
