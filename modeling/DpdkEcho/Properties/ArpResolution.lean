import DpdkEcho.Client.ArpLoop

/-!
# What address resolution finds

* `prepareArpPkt_spec` — the fields of a frame `send_arp` builds
* `scanQueues_spec` — `get_dst_mac` returns the sender of the first frame that looks like a reply
* `arpLoopStep_cases` — everything one turn of the loop can do

`get_dst_mac` does not look at the sender address of a reply. A reply that is still under way
when the call for its host has returned is therefore taken for the answer to the next call.
-/

namespace DpdkEcho

open Infra

/-! ## The frames of `send_arp` -/

/-- The memory of a frame `_prepare_arp_pkt` has filled in. -/
def arpFrame (mem : Mem) (op : UInt16) (srcMac : EtherAddr) (srcIp : UInt32) (dstEth : EtherAddr)
    (dstIp : UInt32) : Mem :=
  let m := storeMac mem ethSrcAddr srcMac
  let m := storeMac m ethDstAddr dstEth
  let m := store16 m ethEtherType etherTypeArp
  let m := store16 m (arpHdr + arpHardware) arpHrdEther
  let m := store16 m (arpHdr + arpProtocol) etherTypeIpv4
  let m := store8 m (arpHdr + arpHlen) 6
  let m := store8 m (arpHdr + arpPlen) 4
  let m := store16 m (arpHdr + arpOpcode) op
  let m := storeMac m (arpHdr + arpSha) srcMac
  let m := store32 m (arpHdr + arpSip) srcIp
  let m := storeMac m (arpHdr + arpTha) dstEth
  store32 m (arpHdr + arpTip) dstIp

/-- A fresh buffer has room for an ARP packet. -/
theorem prepareArpPkt_alloc (id : Nat) (mem : Mem) (op : UInt16) (srcMac : EtherAddr)
    (srcIp : UInt32) (dstEth : EtherAddr) (dstIp : UInt32) :
    prepareArpPkt (Mbuf.alloc id mem) op srcMac srcIp dstEth dstIp =
      some { Mbuf.alloc id mem with
        data := arpFrame mem op srcMac srcIp dstEth dstIp
        dataLen := etherHdrLen + arpHdrLen } := rfl

section
variable (mem : Mem) (op : UInt16) (srcMac : EtherAddr) (srcIp : UInt32) (dstEth : EtherAddr)
  (dstIp : UInt32)

theorem arpFrame_dstAddr :
    loadMac (arpFrame mem op srcMac srcIp dstEth dstIp) ethDstAddr = dstEth := by
  simp (disch := decide) only [arpFrame, loadMac_storeMac, loadMac_store_of_disjoint]

theorem arpFrame_etherType :
    load16 (arpFrame mem op srcMac srcIp dstEth dstIp) ethEtherType = etherTypeArp := by
  simp (disch := decide) only [arpFrame, load16_store16, load16_store_of_disjoint]

theorem arpFrame_opcode :
    load16 (arpFrame mem op srcMac srcIp dstEth dstIp) (arpHdr + arpOpcode) = op := by
  simp (disch := decide) only [arpFrame, load16_store16, load16_store_of_disjoint]

theorem arpFrame_sha :
    loadMac (arpFrame mem op srcMac srcIp dstEth dstIp) (arpHdr + arpSha) = srcMac := by
  simp (disch := decide) only [arpFrame, loadMac_storeMac, loadMac_store_of_disjoint]

theorem arpFrame_sip :
    load32 (arpFrame mem op srcMac srcIp dstEth dstIp) (arpHdr + arpSip) = srcIp := by
  simp (disch := decide) only [arpFrame, load32_store32, load32_store_of_disjoint]

theorem arpFrame_tha :
    loadMac (arpFrame mem op srcMac srcIp dstEth dstIp) (arpHdr + arpTha) = dstEth := by
  simp (disch := decide) only [arpFrame, loadMac_storeMac, loadMac_store_of_disjoint]

theorem arpFrame_tip :
    load32 (arpFrame mem op srcMac srcIp dstEth dstIp) (arpHdr + arpTip) = dstIp := by
  rw [arpFrame, load32_store32]

end

/-- The frame by which the owner of `ip` answers the client: `check_eth_hdr` of a server builds
exactly this. -/
def replyFrame (cntx : Context) (mac : EtherAddr) (ip : UInt32) : Mbuf :=
  { Mbuf.alloc 0 (fun _ => 0) with
    data := arpFrame (fun _ => 0) arpOpReply mac ip cntx.myEth cntx.srcIp
    dataLen := etherHdrLen + arpHdrLen }

theorem isArpReply_replyFrame (cntx : Context) (mac : EtherAddr) (ip : UInt32) :
    isArpReply cntx.srcIp cntx.myEth (replyFrame cntx mac ip) = true := by
  simp [isArpReply, replyFrame, arpFrame_dstAddr, arpFrame_etherType, arpFrame_opcode,
    arpFrame_tha, arpFrame_tip]

/-! ## Reading the queues -/

section
variable {srcIp : UInt32} {srcMac : EtherAddr}

/-- The result so far is the sender of the first reply among the frames read so far. -/
def ArpScan.consistent (srcIp : UInt32) (srcMac : EtherAddr) (st : ArpScan) : Prop :=
  st.dstMac = (st.freed.find? (isArpReply srcIp srcMac)).map arpSenderMac

theorem scanPacket_freed (st : ArpScan) (buf : Mbuf) :
    (scanPacket srcIp srcMac st buf).freed = st.freed ++ [buf] := by
  unfold scanPacket
  split
  · rfl
  · split <;> rfl

theorem scanPacket_consistent {st : ArpScan} (h : st.consistent srcIp srcMac) (buf : Mbuf) :
    (scanPacket srcIp srcMac st buf).consistent srcIp srcMac := by
  unfold ArpScan.consistent at h ⊢
  rw [scanPacket_freed, List.find?_append, Option.map_or, ← h]
  unfold scanPacket
  split
  · next hs => simp [hs]
  · next hs =>
    split
    · next hr => simp [hs, hr]
    · next hr => simp [hs, hr]

theorem scanBurst_consistent {st : ArpScan} (h : st.consistent srcIp srcMac) (bufs : List Mbuf) :
    (scanBurst srcIp srcMac st bufs).consistent srcIp srcMac := by
  induction bufs generalizing st with
  | nil => exact h
  | cons b bs ih => exact ih (scanPacket_consistent h b)

theorem scanBurst_freed (st : ArpScan) (bufs : List Mbuf) :
    (scanBurst srcIp srcMac st bufs).freed = st.freed ++ bufs := by
  induction bufs generalizing st with
  | nil => simp [scanBurst]
  | cons b bs ih =>
    have h := ih (scanPacket srcIp srcMac st b)
    rw [scanPacket_freed, List.append_assoc] at h
    exact h

theorem scanQueues_consistent (waiting : Nat → List Mbuf) (qs : List Nat) {st : ArpScan}
    (h : st.consistent srcIp srcMac) :
    (scanQueues srcIp srcMac waiting qs st).consistent srcIp srcMac := by
  induction qs generalizing st with
  | nil => exact h
  | cons q qs ih =>
    rw [scanQueues]
    split
    · exact h
    · exact ih (scanBurst_consistent h _)

/-- Every frame read was waiting in one of the queues. -/
theorem mem_scanQueues_freed {waiting : Nat → List Mbuf} {qs : List Nat} {st : ArpScan} {buf : Mbuf}
    (h : buf ∈ (scanQueues srcIp srcMac waiting qs st).freed) :
    buf ∈ st.freed ∨ ∃ q ∈ qs, buf ∈ waiting q := by
  induction qs generalizing st with
  | nil => exact Or.inl h
  | cons q qs ih =>
    rw [scanQueues] at h
    split at h
    · exact Or.inl h
    · rcases ih h with h | ⟨q', hq', h⟩
      · rw [scanBurst_freed, List.mem_append] at h
        rcases h with h | h
        · exact Or.inl h
        · exact Or.inr ⟨q, List.mem_cons_self, List.mem_of_mem_take h⟩
      · exact Or.inr ⟨q', List.mem_cons_of_mem q hq', h⟩

/-- **What `get_dst_mac` returns** is the sender hardware address of a frame that was waiting in
one of the queues and looks like a reply. -/
theorem scanQueues_spec {waiting : Nat → List Mbuf} {n : Nat} {mac : EtherAddr} {scan : ArpScan}
    (hscan : scanQueues srcIp srcMac waiting (List.range n) { dstMac := none, freed := [] } = scan)
    (h : scan.dstMac = some mac) :
    ∃ buf ∈ scan.freed, isArpReply srcIp srcMac buf = true ∧ arpSenderMac buf = mac ∧
      ∃ q, q < n ∧ buf ∈ waiting q := by
  have hc : scan.consistent srcIp srcMac := hscan ▸ scanQueues_consistent waiting _ rfl
  rw [ArpScan.consistent, h] at hc
  obtain ⟨buf, hfind, hmac⟩ := Option.map_eq_some_iff.mp hc.symm
  have hmem := List.mem_of_find?_eq_some hfind
  refine ⟨buf, hmem, List.find?_some hfind, hmac, ?_⟩
  rw [← hscan] at hmem
  rcases mem_scanQueues_freed hmem with hmem | ⟨q, hq, hmem⟩
  · simp at hmem
  · exact ⟨q, List.mem_range.mp hq, hmem⟩

/-- A reply at the head of the first queue ends the search. -/
theorem scanQueues_head (waiting : Nat → List Mbuf) {buf : Mbuf} {rest : List Mbuf} {n : Nat}
    (hn : 0 < n) (hw : waiting 0 = buf :: rest) (hr : isArpReply srcIp srcMac buf = true) :
    (scanQueues srcIp srcMac waiting (List.range n) { dstMac := none, freed := [] }).dstMac
      = some (arpSenderMac buf) := by
  obtain ⟨n, rfl⟩ := Nat.exists_eq_succ_of_ne_zero (Nat.ne_of_gt hn)
  have hstart : ArpScan.consistent srcIp srcMac ⟨none, []⟩ := rfl
  have hfirst : (scanBurst srcIp srcMac ⟨none, []⟩ (rxBurst (waiting 0) arpBurstSize)).consistent
      srcIp srcMac := scanBurst_consistent hstart _
  rw [ArpScan.consistent, scanBurst_freed, hw] at hfirst
  have hfound : (scanBurst srcIp srcMac ⟨none, []⟩ (rxBurst (waiting 0) arpBurstSize)).dstMac
      = some (arpSenderMac buf) := by
    rw [hw, hfirst]
    simp [rxBurst, arpBurstSize, hr]
  rw [List.range_succ_eq_map, scanQueues, if_neg (by simp)]
  cases List.map Nat.succ (List.range n) with
  | nil => exact hfound
  | cons q qs => rw [scanQueues, if_pos (by rw [hfound]; rfl), hfound]

end

/-! ## One turn of the loop -/

section
variable {portEth : EtherAddr} {cntx : Context} {owner : UInt32 → EtherAddr}

/-- What `send_arp` got onto the wire asks for the address it was given. -/
theorem sendArp_request {srcIp dstIp : UInt32} {dstEth : EtherAddr} {pool : Option (Nat × Mem)}
    {willing : Nat} {sent freed : List Mbuf}
    (h : sendArp portEth { op := arpOpRequest, srcIp := srcIp, dstEth := dstEth, dstIp := dstIp }
      (pool.map fun p => Mbuf.alloc p.1 p.2) willing = some (sent, freed)) :
    ∀ req ∈ sent, isArpRequestFor dstIp req := by
  intro req hreq
  rcases pool with _ | ⟨id, mem⟩
  · simp only [sendArp, Option.map_none, Option.some.injEq, Prod.mk.injEq] at h
    rw [← h.1] at hreq
    simp at hreq
  · simp only [sendArp, Option.map_some, prepareArpPkt_alloc, Option.bind_eq_bind,
      Option.bind_some] at h
    split at h
    · obtain ⟨rfl, -⟩ := Prod.mk.inj (Option.some.inj h)
      simp at hreq
    · obtain ⟨rfl, -⟩ := Prod.mk.inj (Option.some.inj h)
      rw [List.mem_singleton.mp hreq]
      exact ⟨arpFrame_etherType .., arpFrame_opcode .., arpFrame_tip ..⟩

/-- Everything a turn can do: nothing (the loop is over), crash, or send requests for the
destination that is next and, if it read a reply, store the sender of that. -/
theorem arpLoopStep_cases (st : ArpLoopState) (round : ArpRound) :
    arpLoopStep portEth cntx st round = (st, []) ∨
    arpLoopStep portEth cntx st round = ({ st with crashed := true }, []) ∨
    ∃ dstIp sent, cntx.dstIps[st.serverEth.length]? = some dstIp ∧
      (∀ req ∈ sent, isArpRequestFor dstIp req) ∧
      (arpLoopStep portEth cntx st round = ({ st with wire := st.wire ++ sent }, []) ∨
        ∃ (buf : Mbuf) (read : List Mbuf) (q : Nat), buf ∈ read ∧ q < cntx.countQueues ∧
          buf ∈ round.waiting q ∧
          isArpReply cntx.srcIp cntx.myEth buf = true ∧
          arpLoopStep portEth cntx st round =
            ({ st with serverEth := st.serverEth ++ [arpSenderMac buf], wire := st.wire ++ sent },
              [{ dstIp := dstIp, dstMac := arpSenderMac buf, read := read }])) := by
  unfold arpLoopStep
  split
  · exact Or.inl rfl
  · next dstIp hdst =>
    split
    · exact Or.inl rfl
    · split
      · exact Or.inr (Or.inl rfl)
      · next sent scan hround =>
        refine Or.inr (Or.inr ⟨dstIp, sent, hdst, ?_, ?_⟩)
        all_goals
          obtain ⟨⟨sent', freed⟩, hsend, hpure⟩ := Option.bind_eq_some_iff.mp hround
          obtain ⟨rfl, hscan⟩ := Prod.mk.inj (Option.some.inj hpure)
        · exact sendArp_request hsend
        · split
          · exact Or.inl rfl
          · next mac hmac =>
            obtain ⟨buf, hmem, hreply, rfl, q, hq, hw⟩ := scanQueues_spec hscan hmac
            exact Or.inr ⟨buf, scan.freed, q, hmem, hq, hw, hreply, rfl⟩

/-! ## Runs without late replies -/

/-- The table agrees with the owners as far as it is filled. -/
def TableCorrect (cntx : Context) (owner : UInt32 → EtherAddr) (st : ArpLoopState) : Prop :=
  st.serverEth = (cntx.dstIps.take st.serverEth.length).map owner

theorem tableCorrect_step (st : ArpLoopState) (round : ArpRound) (h : TableCorrect cntx owner st)
    (hG : HonestRound portEth cntx owner st round ∧ PromptRound cntx st round) :
    TableCorrect cntx owner (arpLoopStep portEth cntx st round).1 := by
  obtain ⟨hhonest, hprompt⟩ := hG
  rcases arpLoopStep_cases st round with he | he | ⟨dstIp, sent, hdst, -, he | he⟩
  · rw [he]; exact h
  · rw [he]; exact h
  · rw [he]; exact h
  · obtain ⟨buf, read, q, -, hq, hw, hreply, he⟩ := he
    have hmac : arpSenderMac buf = owner dstIp := by
      rw [(hhonest q hq buf hw hreply).1, hprompt dstIp hdst q hq buf hw hreply]
    unfold TableCorrect at h ⊢
    rw [he, List.length_append, List.length_singleton, List.take_add_one, hdst, List.map_append,
      ← h, hmac]
    rfl

theorem fromDestination_step (st : ArpLoopState) (round : ArpRound)
    (hprompt : PromptRound cntx st round) :
    ∀ r ∈ (arpLoopStep portEth cntx st round).2, r.fromDestination cntx := by
  intro r hr
  rcases arpLoopStep_cases st round with he | he | ⟨dstIp, sent, hdst, -, he | he⟩
  · rw [he] at hr; simp at hr
  · rw [he] at hr; simp at hr
  · rw [he] at hr; simp at hr
  · obtain ⟨buf, read, q, hread, hq, hw, hreply, he⟩ := he
    rw [he, List.mem_singleton] at hr
    rw [hr]
    exact ⟨buf, hread, hreply, hprompt dstIp hdst q hq buf hw hreply, rfl⟩

/-- What the loop is for, over a run: when it is through, every entry of `_server_eth` is the
hardware address of the owner of that destination, and every call returned the sender address
of a reply by the host it asked for. -/
def ResolvesCorrectly (portEth : EtherAddr) (cntx : Context) (owner : UInt32 → EtherAddr)
    (rounds : List ArpRound) : Prop :=
  ((final (arpLoopStep portEth cntx) arpLoopInit rounds).finished cntx →
    (final (arpLoopStep portEth cntx) arpLoopInit rounds).serverEth = cntx.dstIps.map owner) ∧
  ∀ r ∈ trace (arpLoopStep portEth cntx) arpLoopInit rounds, r.fromDestination cntx

/-- Without late replies the loop does what it is for. -/
theorem resolvesCorrectly_of_prompt {rounds : List ArpRound}
    (h : Along (arpLoopStep portEth cntx)
      (fun st r => HonestRound portEth cntx owner st r ∧ PromptRound cntx st r)
      arpLoopInit rounds) : ResolvesCorrectly portEth cntx owner rounds := by
  constructor
  · intro hfin
    have htable : TableCorrect cntx owner
        (final (arpLoopStep portEth cntx) arpLoopInit rounds) :=
      final_invariant (TableCorrect cntx owner) tableCorrect_step rfl h
    rwa [TableCorrect, hfin, List.take_length] at htable
  · exact trace_forall (TableCorrect cntx owner) (Resolved.fromDestination cntx) tableCorrect_step
      (fun st r _ hG => fromDestination_step st r hG.2) rfl h

/-! ## One destination address -/

/-- All requests on the wire are for destinations. -/
def WireForDestinations (cntx : Context) (st : ArpLoopState) : Prop :=
  ∀ req ∈ st.wire, ∀ ip, isArpRequestFor ip req → ip ∈ cntx.dstIps

theorem wireForDestinations_step (st : ArpLoopState) (round : ArpRound)
    (h : WireForDestinations cntx st) :
    WireForDestinations cntx (arpLoopStep portEth cntx st round).1 := by
  rcases arpLoopStep_cases st round with he | he | ⟨dstIp, sent, hdst, hsent, he⟩
  · rw [he]; exact h
  · rw [he]; exact h
  · have hwire : (arpLoopStep portEth cntx st round).1.wire = st.wire ++ sent := by
      rcases he with he | ⟨_, _, _, _, _, _, _, he⟩ <;> rw [he]
    intro req hreq ip hip
    rw [hwire, List.mem_append] at hreq
    rcases hreq with hreq | hreq
    · exact h req hreq ip hip
    · rw [← hip.2.2, (hsent req hreq).2.2]
      exact List.mem_of_getElem? hdst

/-- With a single destination address no reply can belong to another call. -/
theorem promptRound_of_all_equal (heq : ∀ a ∈ cntx.dstIps, ∀ b ∈ cntx.dstIps, a = b)
    (st : ArpLoopState) (round : ArpRound) (hwire : WireForDestinations cntx st)
    (hhonest : HonestRound portEth cntx owner st round) : PromptRound cntx st round := by
  intro dstIp hdst q hq buf hw hreply
  obtain ⟨-, req, hreq, hfor⟩ := hhonest q hq buf hw hreply
  have hmem := wireForDestinations_step st round hwire req hreq _ hfor
  exact heq _ hmem _ (List.mem_of_getElem? hdst)

/-! ## A reply that keeps coming -/

/-- A turn in which the request gets out and every queue holds one more reply of the host that
owns `ip`. -/
def repeatedReply (cntx : Context) (owner : UInt32 → EtherAddr) (ip : UInt32) : ArpRound where
  pool := some (0, fun _ => 0)
  willing := 1
  waiting := fun _ => [replyFrame cntx (owner ip) ip]

/-- The request a turn with a fresh buffer sends. -/
def requestFrame (portEth : EtherAddr) (cntx : Context) (dstIp : UInt32) : Mbuf :=
  { Mbuf.alloc 0 (fun _ => 0) with
    data := arpFrame (fun _ => 0) arpOpRequest portEth cntx.srcIp broadcastMac dstIp
    dataLen := etherHdrLen + arpHdrLen }

theorem arpLoopStep_repeatedReply (portEth : EtherAddr) (owner : UInt32 → EtherAddr) (ip : UInt32)
    (hq : 0 < cntx.countQueues) {st : ArpLoopState} {dstIp : UInt32}
    (hdst : cntx.dstIps[st.serverEth.length]? = some dstIp) (hc : st.crashed = false) :
    (arpLoopStep portEth cntx st (repeatedReply cntx owner ip)).1 =
      { serverEth := st.serverEth ++ [owner ip]
        wire := st.wire ++ [requestFrame portEth cntx dstIp], crashed := false } := by
  have hscan := scanQueues_head (repeatedReply cntx owner ip).waiting hq rfl
    (isArpReply_replyFrame cntx (owner ip) ip)
  have hsend : sendArp portEth
      { op := arpOpRequest, srcIp := cntx.srcIp, dstEth := broadcastMac, dstIp := dstIp }
      (some (Mbuf.alloc 0 fun _ => 0)) 1 = some ([requestFrame portEth cntx dstIp], []) := rfl
  have hround : getDstMacRound portEth cntx.srcIp cntx.myEth dstIp cntx.countQueues
      (repeatedReply cntx owner ip) = some ([requestFrame portEth cntx dstIp],
        scanQueues cntx.srcIp cntx.myEth (repeatedReply cntx owner ip).waiting
          (List.range cntx.countQueues) { dstMac := none, freed := [] }) := by
    rw [getDstMacRound, show (repeatedReply cntx owner ip).willing = 1 from rfl,
      show (repeatedReply cntx owner ip).pool = some (0, fun _ => 0) from rfl, Option.map_some,
      hsend]
    rfl
  simp only [arpLoopStep, hdst, hc, hround, hscan]
  rw [arpSenderMac, replyFrame, arpFrame_sha]
  rfl

/-- From a state in which the first destination has been asked for, if any has, every call
returns that host's address, and the network is honest throughout. -/
theorem repeatedReply_run (portEth : EtherAddr) (owner : UInt32 → EtherAddr) {ip : UInt32}
    (hq : 0 < cntx.countQueues) (hip : cntx.dstIps[0]? = some ip) :
    ∀ (n : Nat) (st : ArpLoopState), st.crashed = false →
      (st.serverEth = [] ∨ ∃ req ∈ st.wire, isArpRequestFor ip req) →
      st.serverEth.length + n ≤ cntx.dstIps.length →
      Along (arpLoopStep portEth cntx) (HonestRound portEth cntx owner) st
        (List.replicate n (repeatedReply cntx owner ip)) ∧
      (final (arpLoopStep portEth cntx) st
        (List.replicate n (repeatedReply cntx owner ip))).serverEth
          = st.serverEth ++ List.replicate n (owner ip)
  | 0, st, _, _, _ => ⟨trivial, by simp⟩
  | n + 1, st, hc, hasked, hlen => by
    obtain ⟨dstIp, hdst⟩ : ∃ dstIp, cntx.dstIps[st.serverEth.length]? = some dstIp :=
      ⟨_, List.getElem?_eq_getElem (by omega)⟩
    have hstep := arpLoopStep_repeatedReply portEth owner ip hq hdst hc
    have hsent : isArpRequestFor dstIp (requestFrame portEth cntx dstIp) :=
      ⟨arpFrame_etherType .., arpFrame_opcode .., arpFrame_tip ..⟩
    -- from now on the first destination has been asked for, by this turn or by an earlier one
    have hasked' : ∃ req ∈ st.wire ++ [requestFrame portEth cntx dstIp],
        isArpRequestFor ip req := by
      rcases hasked with hnil | ⟨req, hreq, hfor⟩
      · rw [hnil] at hdst
        have hd : dstIp = ip := Option.some.inj (hdst.symm.trans hip)
        exact ⟨_, List.mem_append_right _ (List.mem_singleton.mpr rfl), hd ▸ hsent⟩
      · exact ⟨req, List.mem_append_left _ hreq, hfor⟩
    have ih := repeatedReply_run portEth owner hq hip n
      (arpLoopStep portEth cntx st (repeatedReply cntx owner ip)).1 (by rw [hstep])
      (by rw [hstep]; exact Or.inr hasked') (by rw [hstep]; simp; omega)
    rw [List.replicate_succ]
    refine ⟨⟨?_, ih.1⟩, ?_⟩
    · intro q _ buf hbuf _
      rw [List.mem_singleton.mp hbuf, arpSenderMac, arpSenderIp, replyFrame, arpFrame_sha,
        arpFrame_sip, hstep]
      exact ⟨rfl, hasked'⟩
    · rw [final_cons, ih.2, hstep, List.replicate_succ, List.append_assoc]
      rfl

/-- From any state on, the owners of the destinations that are left answer one after the other: no
reply comes late, and the table gets full. -/
theorem promptReply_run (portEth : EtherAddr) (owner : UInt32 → EtherAddr)
    (hq : 0 < cntx.countQueues) : ∀ (rest : List UInt32) (st : ArpLoopState), st.crashed = false →
      st.serverEth.length + rest.length = cntx.dstIps.length →
      cntx.dstIps.drop st.serverEth.length = rest →
      Along (arpLoopStep portEth cntx)
        (fun st r => HonestRound portEth cntx owner st r ∧ PromptRound cntx st r) st
        (rest.map (repeatedReply cntx owner)) ∧
      (final (arpLoopStep portEth cntx) st (rest.map (repeatedReply cntx owner))).finished cntx
  | [], st, _, hlen, _ => ⟨trivial, hlen⟩
  | ip :: rest, st, hc, hlen, hrest => by
    have hdst : cntx.dstIps[st.serverEth.length]? = some ip := by
      rw [← List.head?_drop, hrest]
      rfl
    have hstep := arpLoopStep_repeatedReply portEth owner ip hq hdst hc
    have hrest' : cntx.dstIps.drop (st.serverEth ++ [owner ip]).length = rest := by
      rw [List.length_append, ← List.drop_drop, hrest]
      rfl
    obtain ⟨halong, hfin⟩ := promptReply_run portEth owner hq rest
      (arpLoopStep portEth cntx st (repeatedReply cntx owner ip)).1 (by rw [hstep])
      (by rw [hstep, ← hlen]; simp; omega) (by rw [hstep]; exact hrest')
    refine ⟨⟨⟨?_, ?_⟩, halong⟩, hfin⟩
    · intro q _ buf hbuf _
      rw [List.mem_singleton.mp hbuf, arpSenderMac, arpSenderIp, replyFrame, arpFrame_sha,
        arpFrame_sip, hstep]
      exact ⟨rfl, _, List.mem_append_right _ (List.mem_singleton.mpr rfl),
        arpFrame_etherType .., arpFrame_opcode .., arpFrame_tip ..⟩
    · intro dstIp hdst' q _ buf hbuf _
      rw [List.mem_singleton.mp hbuf, arpSenderIp, replyFrame, arpFrame_sip]
      exact Option.some.inj (hdst.symm.trans hdst')

/--
**When address resolution is right.** Let the destinations belong to honest hosts, different
hosts for different addresses. The loop fills `_server_eth` correctly in every run in which no
reply comes late. Whatever the network does with the replies, it does so exactly when all
destination addresses are the same: with two different ones, the replies of the first host are
taken for answers of the second when they come once more.
-/
theorem arp_resolution_correct_iff (portEth : EtherAddr) (cntx : Context)
    (owner : UInt32 → EtherAddr) (hq : 0 < cntx.countQueues)
    (hinj : ∀ a ∈ cntx.dstIps, ∀ b ∈ cntx.dstIps, owner a = owner b → a = b) :
    (∀ rounds, Along (arpLoopStep portEth cntx)
        (fun st r => HonestRound portEth cntx owner st r ∧ PromptRound cntx st r)
        arpLoopInit rounds → ResolvesCorrectly portEth cntx owner rounds) ∧
    ((∀ rounds, Along (arpLoopStep portEth cntx) (HonestRound portEth cntx owner)
        arpLoopInit rounds → ResolvesCorrectly portEth cntx owner rounds) ↔
      ∀ a ∈ cntx.dstIps, ∀ b ∈ cntx.dstIps, a = b) := by
  refine ⟨?_, ?_, ?_⟩
  · intro rounds h
    exact resolvesCorrectly_of_prompt h
  · intro hall
    have hfirst : ∀ ip, cntx.dstIps[0]? = some ip → ∀ a ∈ cntx.dstIps, a = ip := by
      intro ip hip a ha
      -- the replies of the first host keep coming until the table is full
      obtain ⟨halong, htable⟩ := repeatedReply_run portEth owner hq hip
        cntx.dstIps.length arpLoopInit rfl (Or.inl rfl) (by simp [arpLoopInit])
      have hfin := (hall _ halong).1 (by rw [ArpLoopState.finished, htable]; simp [arpLoopInit])
      rw [htable, show arpLoopInit.serverEth = [] from rfl, List.nil_append] at hfin
      have hmem : owner a ∈ cntx.dstIps.map owner := List.mem_map_of_mem ha
      rw [← hfin] at hmem
      exact hinj a ha ip (List.mem_of_getElem? hip) (List.eq_of_mem_replicate hmem)
    intro a ha b hb
    cases hd : cntx.dstIps with
    | nil => rw [hd] at ha; simp at ha
    | cons ip rest =>
      have hip : cntx.dstIps[0]? = some ip := by rw [hd]; rfl
      rw [hfirst ip hip a ha, hfirst ip hip b hb]
  · -- with one address every reply is prompt, since only that address was ever asked for
    intro heq rounds h
    refine resolvesCorrectly_of_prompt (Along.strengthen (WireForDestinations cntx)
      (fun st r hw _ => wireForDestinations_step st r hw) ?_ ?_ h)
    · intro st r hw hh
      exact ⟨hh, promptRound_of_all_equal heq st r hw hh⟩
    · intro req hreq
      simp [arpLoopInit] at hreq

end

/-- The hardware address of the sample client. -/
def sampleMac : EtherAddr := ⟨[2, 0, 0, 0, 0, 0], rfl⟩

/-- A client with one queue. -/
def sampleClient (dstIps : List UInt32) : Context where
  workerId := 0
  defaultQid := 0
  myEth := sampleMac
  srcIp := 0x0A000001
  srcPort := 3000
  countQueues := 1
  useVlan := false
  bidi := true
  doArp := true
  delayCycles := 0
  managedQueues := []
  duration := 0
  dstIps := dstIps
  dstPort := 8080
  payloadLength := 64
  countFlow := 1
  basePortNumber := 8080
  rateLimit := false
  rate := 0
  batch := 32

/-- Host `10.0.0.n` has a hardware address that ends in `n`. -/
def sampleOwner (ip : UInt32) : EtherAddr := ⟨[2, 0, 0, 0, 0, ip.toUInt8], rfl⟩

/-- Two destinations, and each host answers the call for it. -/
theorem arp_resolution_correct_two :
    let cntx := sampleClient [0x0A000002, 0x0A000003]
    let first := repeatedReply cntx sampleOwner 0x0A000002
    let second := repeatedReply cntx sampleOwner 0x0A000003
    (final (arpLoopStep sampleMac cntx) arpLoopInit [first, second]).serverEth
      = [sampleOwner 0x0A000002, sampleOwner 0x0A000003] := by
  intro cntx first second
  obtain ⟨halong, hlen⟩ := @promptReply_run cntx sampleMac sampleOwner (by decide) cntx.dstIps
    arpLoopInit rfl rfl rfl
  have hinj : ∀ a ∈ cntx.dstIps, ∀ b ∈ cntx.dstIps, sampleOwner a = sampleOwner b → a = b := by
    intro a ha b hb howner
    rcases List.mem_pair.mp ha with rfl | rfl <;> rcases List.mem_pair.mp hb with rfl | rfl
    · rfl
    · exact absurd howner (by decide)
    · exact absurd howner (by decide)
    · rfl
  exact ((arp_resolution_correct_iff sampleMac cntx sampleOwner (by decide) hinj).1 _ halong).1 hlen

/-- Two destinations, and the reply of the first host comes twice: the second entry is filled
with the hardware address of the first host. -/
theorem arp_resolution_wrong_two :
    ¬ ∀ rounds, Along (arpLoopStep sampleMac (sampleClient [0x0A000002, 0x0A000003]))
        (HonestRound sampleMac (sampleClient [0x0A000002, 0x0A000003]) sampleOwner)
        arpLoopInit rounds →
      ResolvesCorrectly sampleMac (sampleClient [0x0A000002, 0x0A000003]) sampleOwner rounds := by
  intro hall
  have hip : (sampleClient [0x0A000002, 0x0A000003]).dstIps[0]? = some 0x0A000002 := rfl
  obtain ⟨halong, htable⟩ := repeatedReply_run sampleMac sampleOwner (by decide) hip 2 arpLoopInit
    rfl (Or.inl rfl) (by decide)
  have hfin := (hall _ halong).1 (by rw [ArpLoopState.finished, htable]; rfl)
  rw [htable] at hfin
  exact absurd hfin (by decide)

end DpdkEcho
