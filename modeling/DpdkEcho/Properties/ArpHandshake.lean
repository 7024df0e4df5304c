import DpdkEcho.Properties.ArpResolution

/-!
# The ARP handshake

The request of a client makes the server answer, and the answer ends the client's call with the
address of the server. Builder and readers agree on seven fields, `ArpFields`.

* `checkEthHdr_request`: the server answers the request
* `isArpReply_reply`: the client takes the answer for one
* `getDstMac_stops`: a reply ends the call, wherever it is in a burst, and every frame that was read
  has been freed
-/

namespace DpdkEcho

open Infra

/-! ## The fields of an ARP frame -/

/-- What `check_eth_hdr` and `get_dst_mac` look at. -/
structure ArpFields where
  dstAddr : EtherAddr
  etherType : UInt16
  opcode : UInt16
  sha : EtherAddr
  sip : UInt32
  tha : EtherAddr
  tip : UInt32

/-- The fields of a buffer's contents. -/
def arpFields (m : Mem) : ArpFields where
  dstAddr := loadMac m ethDstAddr
  etherType := load16 m ethEtherType
  opcode := load16 m (arpHdr + arpOpcode)
  sha := loadMac m (arpHdr + arpSha)
  sip := load32 m (arpHdr + arpSip)
  tha := loadMac m (arpHdr + arpTha)
  tip := load32 m (arpHdr + arpTip)

/-- `rcv` is what arrives of the ARP frame `sent`: the same bytes, possibly padded behind them. -/
def Arrives (sent rcv : Mbuf) : Prop :=
  sent.dataLen ≤ rcv.dataLen ∧ ∀ i, i < sent.dataLen → rcv.data i = sent.data i

theorem arpFields_arpFrame (mem : Mem) (op : UInt16) (srcMac : EtherAddr) (srcIp : UInt32)
    (dstEth : EtherAddr) (dstIp : UInt32) :
    arpFields (arpFrame mem op srcMac srcIp dstEth dstIp)
      = { dstAddr := dstEth, etherType := etherTypeArp, opcode := op, sha := srcMac, sip := srcIp,
          tha := dstEth, tip := dstIp } := by
  simp only [arpFields, arpFrame_dstAddr, arpFrame_etherType, arpFrame_opcode, arpFrame_sha,
    arpFrame_sip, arpFrame_tha, arpFrame_tip]

/-- The fields lie in the first 42 bytes. -/
theorem arpFields_congr {m m' : Mem} (h : ∀ i, i < etherHdrLen + arpHdrLen → m' i = m i) :
    arpFields m' = arpFields m := by
  simp only [etherHdrLen, arpHdrLen] at h
  simp only [arpFields, arpHdr, etherHdrLen, ethDstAddr, ethEtherType, arpOpcode, arpSha, arpSip,
    arpTha, arpTip, ArpFields.mk.injEq]
  exact ⟨loadMac_congr fun i _ h2 => h i (by omega), load16_congr fun i _ h2 => h i (by omega),
    load16_congr fun i _ h2 => h i (by omega), loadMac_congr fun i _ h2 => h i (by omega),
    load32_congr fun i _ h2 => h i (by omega), loadMac_congr fun i _ h2 => h i (by omega),
    load32_congr fun i _ h2 => h i (by omega)⟩

/-- The frame of a `send_arp` call that got a buffer. -/
def arpMbuf (id : Nat) (mem : Mem) (srcEth : EtherAddr) (args : ArpSend) : Mbuf :=
  { Mbuf.alloc id mem with
    data := arpFrame mem args.op srcEth args.srcIp args.dstEth args.dstIp
    dataLen := etherHdrLen + arpHdrLen }

/-- `send_arp` with a buffer and a driver that takes the frame. -/
theorem sendArp_alloc (id : Nat) (mem : Mem) (srcEth : EtherAddr) (args : ArpSend) {willing : Nat}
    (hw : 1 ≤ willing) :
    sendArp srcEth args (some (Mbuf.alloc id mem)) willing
      = some ([arpMbuf id mem srcEth args], []) := by
  have htaken : txBurst willing 1 = 1 := Nat.min_eq_right hw
  simp [sendArp, prepareArpPkt_alloc, htaken, arpMbuf]

theorem arpFields_of_arrives {id : Nat} {mem : Mem} {srcEth : EtherAddr} {args : ArpSend}
    {rcv : Mbuf} (h : Arrives (arpMbuf id mem srcEth args) rcv) :
    arpFields rcv.data =
      { dstAddr := args.dstEth, etherType := etherTypeArp, opcode := args.op, sha := srcEth,
        sip := args.srcIp, tha := args.dstEth, tip := args.dstIp } := by
  rw [arpFields_congr h.2]
  exact arpFields_arpFrame ..

/-! ## The two readers -/

/-- **A request for the server's address is answered**, to the sender it names. -/
theorem checkEthHdr_request {buf : Mbuf} {f : ArpFields} (hf : arpFields buf.data = f)
    (hdst : f.dstAddr = broadcastMac) (htype : f.etherType = etherTypeArp)
    (hop : f.opcode = arpOpRequest) (hostMac : EtherAddr) :
    checkEthHdr f.tip hostMac buf =
      { valid := false,
        reply := some { op := arpOpReply, srcIp := f.tip, dstEth := f.sha, dstIp := f.sip } } := by
  subst hf
  simp only [arpFields] at hdst htype hop ⊢
  have hours : ¬ (loadMac buf.data ethDstAddr ≠ hostMac ∧
      loadMac buf.data ethDstAddr ≠ broadcastMac) := fun h => h.2 hdst
  rw [checkEthHdr, if_neg hours, if_pos htype, if_pos ⟨hop, rfl⟩]
  rfl

/-- **A frame that does not ask for the host's address is not answered.** -/
theorem checkEthHdr_other {myIp : UInt32} {buf : Mbuf} (hostMac : EtherAddr)
    (h : load32 buf.data (arpHdr + arpTip) ≠ myIp) :
    (checkEthHdr myIp hostMac buf).reply = none := by
  unfold checkEthHdr
  split
  · rfl
  · split
    · rw [if_neg fun hreq => h hreq.2]
    · rfl

/-- **The answer is taken for one** by the client it is sent to. -/
theorem isArpReply_reply {buf : Mbuf} {f : ArpFields} (hf : arpFields buf.data = f)
    {srcIp : UInt32} {srcMac : EtherAddr} (hdst : f.dstAddr = srcMac)
    (htype : f.etherType = etherTypeArp) (hop : f.opcode = arpOpReply) (htha : f.tha = srcMac)
    (htip : f.tip = srcIp) : isArpReply srcIp srcMac buf = true ∧ arpSenderMac buf = f.sha := by
  subst hf
  simp only [arpFields] at hdst htype hop htha htip
  exact ⟨by simp [isArpReply, hdst, htype, hop, htha, htip], rfl⟩

/-! ## The loop of `get_dst_mac` -/

/-- The frames of a queue that a turn reads. -/
def ArpRound.burst (round : ArpRound) (q : Nat) : List Mbuf :=
  rxBurst (round.waiting q) arpBurstSize

/-- The frames of the first `n` queues that a turn reads. -/
def ArpRound.bursts (round : ArpRound) (n : Nat) : List Mbuf := (List.range n).flatMap round.burst

section
variable {portEth : EtherAddr} {srcIp dstIp : UInt32} {srcMac : EtherAddr}

/-- Nothing found, and all of it freed. -/
theorem scanQueues_none {round : ArpRound} : ∀ {qs : List Nat} {st : ArpScan}, st.dstMac = none →
    (∀ q ∈ qs, ∀ buf ∈ round.burst q, isArpReply srcIp srcMac buf = false) →
    scanQueues srcIp srcMac round.waiting qs st
      = { dstMac := none, freed := st.freed ++ qs.flatMap round.burst }
  | [], st, hst, _ => by simp [scanQueues, ← hst]
  | q :: qs, st, hst, h => by
    have hquiet : ∀ (bufs : List Mbuf) (st : ArpScan), st.dstMac = none →
        (∀ buf ∈ bufs, isArpReply srcIp srcMac buf = false) →
        scanBurst srcIp srcMac st bufs = { dstMac := none, freed := st.freed ++ bufs } := by
      intro bufs
      induction bufs with
      | nil => intro st hst _; simp [scanBurst, ← hst]
      | cons b bs ih =>
        intro st hst hb
        have hone : scanPacket srcIp srcMac st b =
            { dstMac := none, freed := st.freed ++ [b] } := by
          simp [scanPacket, hst, hb b List.mem_cons_self]
        rw [scanBurst, List.foldl_cons, ← scanBurst, hone,
          ih _ rfl fun x hx => hb x (List.mem_cons_of_mem b hx)]
        simp
    have hfirst := hquiet (round.burst q) st hst (h q List.mem_cons_self)
    rw [scanQueues, if_neg (by simp [hst]), ← ArpRound.burst, hfirst,
      scanQueues_none rfl fun q' hq' => h q' (List.mem_cons_of_mem q hq'), List.flatMap_cons,
      List.append_assoc]

/-- The queue after which the loop is left. -/
theorem scanQueues_found {round : ArpRound} {st : ArpScan} (hst : st.dstMac.isSome = true) :
    ∀ qs : List Nat, scanQueues srcIp srcMac round.waiting qs st = st
  | [] => rfl
  | q :: qs => by rw [scanQueues, if_pos hst]

theorem scanQueues_append (waiting : Nat → List Mbuf) : ∀ (qs qs' : List Nat) (st : ArpScan),
    scanQueues srcIp srcMac waiting (qs ++ qs') st
      = scanQueues srcIp srcMac waiting qs' (scanQueues srcIp srcMac waiting qs st)
  | [], _, _ => rfl
  | q :: qs, qs', st => by
    rw [List.cons_append, scanQueues, scanQueues]
    split
    · next hsome =>
      cases qs' with
      | nil => rfl
      | cons q' qs' => rw [scanQueues, if_pos hsome]
    · exact scanQueues_append waiting qs qs' _

/-- **The turn that reads a reply.** It stops at that queue, with the sender of the reply, and has
freed all it has read. -/
theorem scanQueues_reply {round : ArpRound} {q n : Nat} (hq : q < n) {earlier later : List Mbuf}
    {reply : Mbuf} (hburst : round.burst q = earlier ++ reply :: later)
    (hlower : ∀ q', q' < q → ∀ buf ∈ round.burst q', isArpReply srcIp srcMac buf = false)
    (hearlier : ∀ buf ∈ earlier, isArpReply srcIp srcMac buf = false)
    (hreply : isArpReply srcIp srcMac reply = true) :
    scanQueues srcIp srcMac round.waiting (List.range n) { dstMac := none, freed := [] }
      = { dstMac := some (arpSenderMac reply), freed := round.bursts (q + 1) } := by
  obtain ⟨k, rfl⟩ : ∃ k, n = q + (k + 1) := ⟨n - q - 1, by omega⟩
  have hlow : scanQueues srcIp srcMac round.waiting (List.range q) { dstMac := none, freed := [] }
      = { dstMac := none, freed := round.bursts q } := by
    rw [scanQueues_none rfl fun q' hq' => hlower q' (List.mem_range.mp hq'), List.nil_append]
    rfl
  -- what was found is determined by the frames read, of which only the last burst has a reply
  have hfreed := @scanBurst_freed srcIp srcMac ⟨none, round.bursts q⟩ (round.burst q)
  have hcons : (scanBurst srcIp srcMac ⟨none, round.bursts q⟩ (round.burst q)).consistent
      srcIp srcMac := by
    refine scanBurst_consistent ?_ _
    rw [← hlow]
    exact scanQueues_consistent _ _ rfl
  have hfind : (round.bursts q ++ round.burst q).find? (isArpReply srcIp srcMac) = some reply := by
    rw [hburst, ← List.append_assoc]
    refine List.find?_eq_some_iff_append.mpr ⟨hreply, _, later, rfl, fun buf hbuf => ?_⟩
    rcases List.mem_append.mp hbuf with hbuf | hbuf
    · obtain ⟨q', hq', hmem⟩ := List.mem_flatMap.mp hbuf
      rw [hlower q' (List.mem_range.mp hq') buf hmem]
      rfl
    · rw [hearlier buf hbuf]
      rfl
  have hmac : (scanBurst srcIp srcMac ⟨none, round.bursts q⟩ (round.burst q)).dstMac
      = some (arpSenderMac reply) := by
    rw [hcons, hfreed, hfind, Option.map_some]
  have hscan : scanBurst srcIp srcMac ⟨none, round.bursts q⟩ (round.burst q)
      = { dstMac := some (arpSenderMac reply), freed := round.bursts (q + 1) } := by
    have hall : round.bursts (q + 1) = round.bursts q ++ round.burst q := by
      simp [ArpRound.bursts, List.range_succ]
    rw [hall, ← hfreed, ← hmac]
  rw [List.range_add, List.range_succ_eq_map, List.map_cons, scanQueues_append, hlow, scanQueues,
    if_neg (by simp), Nat.add_zero, ← ArpRound.burst, hscan, scanQueues_found rfl]

/-- A turn does not crash: `send_arp` works on a fresh buffer. -/
theorem getDstMacRound_eq (countQueue : Nat) (round : ArpRound) :
    ∃ sent, getDstMacRound portEth srcIp srcMac dstIp countQueue round
      = some (sent, scanQueues srcIp srcMac round.waiting (List.range countQueue)
          { dstMac := none, freed := [] }) := by
  have hsend : ∃ sent freed, sendArp portEth
      { op := arpOpRequest, srcIp := srcIp, dstEth := broadcastMac, dstIp := dstIp }
      (round.pool.map fun p => Mbuf.alloc p.1 p.2) round.willing = some (sent, freed) := by
    cases round.pool with
    | none => exact ⟨[], [], rfl⟩
    | some p =>
      simp only [Option.map_some, sendArp, prepareArpPkt_alloc, Option.bind_eq_bind,
        Option.bind_some]
      split
      · exact ⟨_, _, rfl⟩
      · exact ⟨_, _, rfl⟩
  obtain ⟨sent, freed, hsend⟩ := hsend
  refine ⟨sent, ?_⟩
  rw [getDstMacRound, hsend]
  rfl

/-- **A reply ends the call**, after any number of turns without one. -/
theorem getDstMac_stops {countQueue : Nat} {round : ArpRound} {q : Nat}
    (hq : q < countQueue) {earlier later : List Mbuf} {reply : Mbuf}
    (hburst : round.burst q = earlier ++ reply :: later)
    (hlower : ∀ q', q' < q → ∀ buf ∈ round.burst q', isArpReply srcIp srcMac buf = false)
    (hearlier : ∀ buf ∈ earlier, isArpReply srcIp srcMac buf = false)
    (hreply : isArpReply srcIp srcMac reply = true) (after : List ArpRound) :
    ∀ before : List ArpRound, (∀ r ∈ before, ∀ buf ∈ r.bursts countQueue,
        isArpReply srcIp srcMac buf = false) →
      ∃ sent, getDstMac portEth srcIp srcMac dstIp countQueue (before ++ round :: after)
        = some { sent := sent
                 freed := before.flatMap (·.bursts countQueue) ++ round.bursts (q + 1)
                 dstMac := some (arpSenderMac reply) }
  | [], _ => by
    obtain ⟨sent, hround⟩ := @getDstMacRound_eq portEth srcIp dstIp srcMac countQueue round
    refine ⟨sent, ?_⟩
    rw [List.nil_append, getDstMac, hround,
      scanQueues_reply hq hburst hlower hearlier hreply]
    rfl
  | r :: before, hbefore => by
    obtain ⟨sent, hround⟩ := @getDstMacRound_eq portEth srcIp dstIp srcMac countQueue r
    obtain ⟨sent', hrest⟩ := getDstMac_stops hq hburst hlower hearlier hreply after before
      fun r' hr' => hbefore r' (List.mem_cons_of_mem r hr')
    have hnone := @scanQueues_none srcIp srcMac r (List.range countQueue) ⟨none, []⟩ rfl
      fun q' hq' buf hbuf => hbefore r List.mem_cons_self buf (List.mem_flatMap.mpr ⟨q', hq', hbuf⟩)
    rw [hnone] at hround
    refine ⟨sent ++ sent', ?_⟩
    rw [List.cons_append, getDstMac, hround, List.flatMap_cons, List.append_assoc]
    simp only [Option.bind_eq_bind, Option.bind_some, Option.isSome_none, Bool.false_eq_true,
      if_false, hrest, List.nil_append, ArpRound.bursts]
    rfl

end

/--
**The ARP handshake.** The request of a client for the address of a server, broadcast, makes the
server answer. The answer ends the client's `get_dst_mac` with the address of the server, at
whatever place of a burst it arrives behind frames that are no replies to the client, and every
frame the call has read has then been freed once, in the order of reading. A request for another
address is not answered. The memory of the buffers and the padding behind the frames are
arbitrary.
-/
theorem arp_handshake (clientMac serverMac : EtherAddr) (clientIp serverIp : UInt32) :
    (∀ (id : Nat) (mem : Mem) (willing : Nat), 1 ≤ willing → ∃ request,
      sendArp clientMac
          { op := arpOpRequest, srcIp := clientIp, dstEth := broadcastMac, dstIp := serverIp }
          (some (Mbuf.alloc id mem)) willing = some ([request], []) ∧
      ∀ rcv, Arrives request rcv → ∃ args,
        checkEthHdr serverIp serverMac rcv = { valid := false, reply := some args } ∧
        ∀ (id' : Nat) (mem' : Mem) (willing' : Nat), 1 ≤ willing' → ∃ reply,
          sendArp serverMac args (some (Mbuf.alloc id' mem')) willing' = some ([reply], []) ∧
          ∀ back, Arrives reply back →
            ∀ (countQueue q : Nat) (before : List ArpRound) (round : ArpRound)
              (after : List ArpRound) (earlier later : List Mbuf), q < countQueue →
              (∀ r ∈ before, ∀ buf ∈ r.bursts countQueue,
                isArpReply clientIp clientMac buf = false) →
              (∀ q', q' < q → ∀ buf ∈ round.burst q', isArpReply clientIp clientMac buf = false) →
              round.burst q = earlier ++ back :: later →
              (∀ buf ∈ earlier, isArpReply clientIp clientMac buf = false) →
              ∃ sent, getDstMac clientMac clientIp clientMac serverIp countQueue
                  (before ++ round :: after)
                = some { sent := sent
                         freed := before.flatMap (·.bursts countQueue) ++ round.bursts (q + 1)
                         dstMac := some serverMac }) ∧
    ∀ buf, load32 buf.data (arpHdr + arpTip) ≠ serverIp →
      (checkEthHdr serverIp serverMac buf).reply = none := by
  refine ⟨?_, fun buf h => checkEthHdr_other serverMac h⟩
  intro id mem willing hw
  refine ⟨_, sendArp_alloc id mem clientMac _ hw, fun rcv hrcv => ?_⟩
  refine ⟨_, checkEthHdr_request (arpFields_of_arrives hrcv) rfl rfl rfl serverMac, ?_⟩
  intro id' mem' willing' hw'
  refine ⟨_, sendArp_alloc id' mem' serverMac _ hw', fun back hback => ?_⟩
  obtain ⟨hreply, hmac⟩ :
      isArpReply clientIp clientMac back = true ∧ arpSenderMac back = serverMac :=
    isArpReply_reply (arpFields_of_arrives hback) rfl rfl rfl rfl rfl
  intro countQueue q before round after earlier later hq hbefore hlower hburst hearlier
  obtain ⟨sent, hcall⟩ := @getDstMac_stops clientMac clientIp serverIp clientMac countQueue round q
    hq earlier later back hburst hlower hearlier hreply after before hbefore
  exact ⟨sent, by rw [hcall, hmac]⟩

/-- A turn in which a frame that is no reply arrives in front of `reply`. -/
def turnWithReply (reply : Mbuf) : ArpRound where
  pool := none
  willing := 0
  waiting := fun _ => [Mbuf.alloc 7 fun _ => 0, reply]

/-- The handshake of the sample client with 10.0.0.2. -/
theorem arp_handshake_sample :
    ∃ request args reply sent,
      sendArp sampleMac { op := arpOpRequest, srcIp := 0x0A000001, dstEth := broadcastMac,
                          dstIp := 0x0A000002 } (some (Mbuf.alloc 0 fun _ => 0)) 1
        = some ([request], []) ∧
      checkEthHdr 0x0A000002 (sampleOwner 0x0A000002) request
        = { valid := false, reply := some args } ∧
      sendArp (sampleOwner 0x0A000002) args (some (Mbuf.alloc 1 fun _ => 0)) 1
        = some ([reply], []) ∧
      getDstMac sampleMac 0x0A000001 sampleMac 0x0A000002 1 [turnWithReply reply]
        = some { sent := sent, freed := [Mbuf.alloc 7 fun _ => 0, reply],
                 dstMac := some (sampleOwner 0x0A000002) } := by
  have harrives : ∀ buf, Arrives buf buf := fun _ => ⟨Nat.le_refl _, fun _ _ => rfl⟩
  obtain ⟨request, hsend, hrequest⟩ := (arp_handshake sampleMac (sampleOwner 0x0A000002)
    0x0A000001 0x0A000002).1 0 (fun _ => 0) 1 (Nat.le_refl 1)
  obtain ⟨args, hcheck, hargs⟩ := hrequest request (harrives request)
  obtain ⟨reply, hsend', hreply⟩ := hargs 1 (fun _ => 0) 1 (Nat.le_refl 1)
  obtain ⟨sent, hcall⟩ := hreply reply (harrives reply) 1 0 [] (turnWithReply reply) []
    [Mbuf.alloc 7 fun _ => 0] [] (by decide) (by simp) (by simp) rfl (by
      intro buf hbuf
      rw [List.mem_singleton.mp hbuf]
      decide)
  exact ⟨request, args, reply, sent, hsend, hcheck, hsend', hcall⟩

end DpdkEcho
