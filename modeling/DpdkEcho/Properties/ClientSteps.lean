import DpdkEcho.Client.Run

/-!
# The steps of `do_client`, case by case

`transmitStep_cases` lists what an iteration of the transmit loop can do, `receiverPacket_frees`
what the receiver does with a packet. What is proved about runs of the client rests on these two
and does not look into the loops again.
-/

namespace DpdkEcho

open Infra

/-! ## Building keeps the buffer -/

section
variable {buf buf' : Mbuf} {info info' : PreparePacketInfo} {rank : Int}

theorem rtePktmbufAppend_id {len off : Nat} (h : rtePktmbufAppend buf len = some (buf', off)) :
    buf'.id = buf.id := by
  rw [rtePktmbufAppend] at h
  split at h
  · cases h
  · cases h
    rfl

/-- The part of `_prepare_eth_vlan_ip` behind the link layer. -/
theorem prepareIp_id {ip : Nat}
    (h : (do
      let info ← selectClientAddr info rank
      let (buf, ip) ← rtePktmbufAppend buf ipv4HdrLen
      let buf := buf.write fun m => ipv4Header m ip info.srcIp info.dstIp
      return ({ buf with l3Len := ipv4HdrLen }, info, ip)) = some (buf', info', ip)) :
    buf'.id = buf.id := by
  obtain ⟨info2, -, h⟩ := Option.bind_eq_some_iff.mp h
  obtain ⟨⟨b, off⟩, hb, h⟩ := Option.bind_eq_some_iff.mp h
  cases h
  have hid := rtePktmbufAppend_id hb
  exact hid

theorem prepareEthVlanIp_id {ip : Nat}
    (h : prepareEthVlanIp buf info rank = some (buf', info', ip)) : buf'.id = buf.id := by
  rw [prepareEthVlanIp] at h
  obtain ⟨⟨b1, eth⟩, h1, h⟩ := Option.bind_eq_some_iff.mp h
  have hid := rtePktmbufAppend_id h1
  simp only [] at h
  split at h
  · exact (prepareIp_id h).trans hid
  · obtain ⟨⟨b2, vlan⟩, h2, h⟩ := Option.bind_eq_some_iff.mp h
    have hid2 := rtePktmbufAppend_id h2
    exact ((prepareIp_id h).trans hid2).trans hid

theorem appendPayload_id (len : UInt16) (flags : UInt64) :
    (appendPayload buf len flags).1.id = buf.id := by
  rw [appendPayload]
  split
  · rfl
  · next b p h =>
    have hid := rtePktmbufAppend_id h
    exact hid

theorem prepareUdp_id {payload : Option Nat}
    (h : prepareUdp buf info rank = some (buf', info', payload)) : buf'.id = buf.id := by
  rw [prepareUdp] at h
  obtain ⟨⟨b1, info1, ip⟩, h1, h⟩ := Option.bind_eq_some_iff.mp h
  obtain ⟨⟨b2, udp⟩, h2, h⟩ := Option.bind_eq_some_iff.mp h
  have hid1 := prepareEthVlanIp_id h1
  have hid2 := rtePktmbufAppend_id h2
  rw [← congrArg (fun r => r.1.id) (Option.some.inj h)]
  refine Eq.trans (appendPayload_id _ _) ?_
  exact hid2.trans hid1

theorem prepareTcp_id {katran : UInt32} {myrand : Int} {payload : Option Nat}
    (h : prepareTcp buf info katran rank myrand = some (buf', info', payload)) :
    buf'.id = buf.id := by
  rw [prepareTcp] at h
  obtain ⟨⟨b1, info1, ip⟩, h1, h⟩ := Option.bind_eq_some_iff.mp h
  obtain ⟨⟨b2, tcp⟩, h2, h⟩ := Option.bind_eq_some_iff.mp h
  have hid1 := prepareEthVlanIp_id h1
  have hid2 := (rtePktmbufAppend_id h2).trans hid1
  simp only [] at h
  split at h
  · obtain ⟨⟨b3, opts⟩, h3, h⟩ := Option.bind_eq_some_iff.mp h
    have hid3 := rtePktmbufAppend_id h3
    simp only [Mbuf.write_id] at hid3
    rw [← congrArg (fun r => r.1.id) (Option.some.inj h)]
    refine Eq.trans (appendPayload_id _ _) ?_
    exact hid3.trans hid2
  · rw [← congrArg (fun r => r.1.id) (Option.some.inj h)]
    refine Eq.trans (appendPayload_id _ _) ?_
    simp only [Mbuf.write_id]
    exact hid2

theorem preparePacket_id {build : ClientBuild} {katran : UInt32} {draws : Draws}
    {payload : Option Nat}
    (h : preparePacket build katran info draws buf = some (buf', info', payload)) :
    buf'.id = buf.id := by
  rw [preparePacket] at h
  split at h
  · exact prepareTcp_id h
  · exact prepareUdp_id h

theorem burstPacket_id {env : ClientEnv} {dstIp : UInt32} {dstPort : UInt16} {draws : Draws}
    (h : burstPacket env dstIp dstPort info draws buf = some (buf', info')) : buf'.id = buf.id := by
  rw [burstPacket] at h
  obtain ⟨⟨b1, info1, payload⟩, h1, h⟩ := Option.bind_eq_some_iff.mp h
  obtain ⟨p, -, h⟩ := Option.bind_eq_some_iff.mp h
  cases h
  have hid := preparePacket_id h1
  exact hid

end

/-- The buffers of a finished burst are the ones the loop was given. -/
theorem buildBurst_ids {env : ClientEnv} {dstIp : UInt32} {dstPort : UInt16} :
    ∀ {pairs : List (Draws × Mbuf)} {info : PreparePacketInfo} {built : List Mbuf},
      buildBurst env dstIp dstPort info pairs = some built →
      built.map Mbuf.id = pairs.map fun p => p.2.id
  | [], _, built, h => by
    cases h
    rfl
  | (draws, buf) :: rest, info, built, h => by
    rw [buildBurst] at h
    obtain ⟨⟨b, info'⟩, hb, h⟩ := Option.bind_eq_some_iff.mp h
    obtain ⟨bs, hbs, h⟩ := Option.bind_eq_some_iff.mp h
    cases h
    rw [List.map_cons, List.map_cons, burstPacket_id hb, buildBurst_ids hbs]

theorem length_allocBurst (burst : Nat) (pool : Nat → Nat × Mem) :
    (allocBurst burst pool).length = burst := by
  rw [allocBurst, List.length_map, List.length_range]

/-! ## What an iteration keeps -/

/-- Neither of the two counters has moved. -/
def SameCounts (st st' : TransmitState) : Prop :=
  st'.totalSentPkts = st.totalSentPkts ∧ st'.failedToPush = st.failedToPush

/-- The tables and what selects from them are the same. -/
structure SamePlace (st st' : TransmitState) : Prop where
  flowQ : st'.flowQ = st.flowQ
  flow : st'.flow = st.flow
  selectedDst : st'.selectedDst = st.selectedDst
  dstPort : st'.dstPort = st.dstPort

/-- An iteration stays where it is, or goes on from the first destination. -/
def Steered (cntx : Context) (st st' : TransmitState) : Prop :=
  SamePlace st st' ∨ (st.selectedDst = 0 ∧ SamePlace (st.selectNext cntx) st')

section
variable (hz : UInt64) (env : ClientEnv) (st : TransmitState) (inp : TransmitInput) (ts : UInt64)

theorem checkDuration_same :
    SameCounts st (st.checkDuration hz inp) ∧ SamePlace st (st.checkDuration hz inp) := by
  unfold TransmitState.checkDuration
  split
  · split <;> exact ⟨⟨rfl, rfl⟩, ⟨rfl, rfl, rfl, rfl⟩⟩
  · exact ⟨⟨rfl, rfl⟩, ⟨rfl, rfl, rfl, rfl⟩⟩

theorem resetWindow_same :
    SameCounts st (st.resetWindow env ts) ∧ SamePlace st (st.resetWindow env ts) := by
  unfold TransmitState.resetWindow
  split <;> exact ⟨⟨rfl, rfl⟩, ⟨rfl, rfl, rfl, rfl⟩⟩

end

/-- What the next destination is depends on the place alone. -/
theorem SamePlace.selectNext {st st' : TransmitState} (h : SamePlace st st') (cntx : Context) :
    SamePlace (st.selectNext cntx) (st'.selectNext cntx) where
  flowQ := h.flowQ
  flow := by simp only [TransmitState.selectNext, h.dstPort, h.selectedDst]
  selectedDst := by simp only [TransmitState.selectNext, h.selectedDst]
  dstPort := by simp only [TransmitState.selectNext, h.dstPort]

theorem SamePlace.trans {st st' st'' : TransmitState} (h : SamePlace st st')
    (h' : SamePlace st' st'') : SamePlace st st'' where
  flowQ := h'.flowQ.trans h.flowQ
  flow := h'.flow.trans h.flow
  selectedDst := h'.selectedDst.trans h.selectedDst
  dstPort := h'.dstPort.trans h.dstPort

theorem SamePlace.abort {st st' : TransmitState} (h : SamePlace st st') :
    SamePlace st { st' with pc := .aborted } :=
  ⟨h.flowQ, h.flow, h.selectedDst, h.dstPort⟩

/-! ## An iteration -/

/-- The counters after a burst of which the driver took `nbTx`. -/
def Counted (st st' : TransmitState) (k nbTx burst : Nat) (measured : Bool) : Prop :=
  if measured then
    st'.totalSentPkts =
      Function.update st.totalSentPkts k (st.totalSentPkts k + UInt64.ofNat nbTx) ∧
    st'.failedToPush =
      Function.update st.failedToPush k (st.failedToPush k + UInt64.ofNat (burst - nbTx))
  else SameCounts st st'

theorem Counted.of_same {st st' st'' : TransmitState} {k nbTx burst : Nat} {measured : Bool}
    (h : SameCounts st st') (h' : Counted st' st'' k nbTx burst measured) :
    Counted st st'' k nbTx burst measured := by
  obtain ⟨hsent, hfailed⟩ := h
  unfold Counted SameCounts at h' ⊢
  rwa [hsent, hfailed] at h'

/-- A burst that was handed to the driver: `bufs` was allocated, `built` are the same buffers with
the packets in them, and the driver took the first `nbTx`. -/
structure SentBurst where
  bufs : List Mbuf
  built : List Mbuf
  k : Nat
  qid : Nat
  nbTx : Nat
  measured : Bool
  same_bufs : built.map Mbuf.id = bufs.map Mbuf.id

/-- The events of a burst. -/
def SentBurst.events (b : SentBurst) (cntx : Context) : List ClientEvent :=
  [.alloc b.bufs, .tx b.k b.qid (b.built.take b.nbTx) b.measured] ++
    (b.built.drop b.nbTx).map .free ++
    if cntx.delayCycles > 0 then [.delay (delayOfBurst cntx)] else []

/--
What the code from the allocation on can do: nothing when there are no buffers, end the process
while it writes the packets, or send what the driver takes and free the rest.
-/
theorem transmitBurst_cases (env : ClientEnv) (st : TransmitState) (inp : TransmitInput) (k : Nat)
    (curFlow : Int) (selectedQ : UInt16) :
    transmitBurst env st inp k curFlow selectedQ = (st, []) ∨
    (∃ bufs, transmitBurst env st inp k curFlow selectedQ =
      ({ st with pc := .aborted }, [.alloc bufs])) ∨
    ∃ st', ∃ b : SentBurst,
      transmitBurst env st inp k curFlow selectedQ = (st', b.events env.cntx) ∧
      b.k = k ∧ b.qid = selectedQ.toNat ∧ b.nbTx ≤ env.cntx.batch.toNat ∧
      Counted st st' b.k b.nbTx env.cntx.batch.toNat b.measured ∧ SamePlace st st' := by
  unfold transmitBurst
  simp only []
  cases inp.pool with
  | none => exact Or.inl rfl
  | some pool =>
    right
    simp only []
    split
    · exact Or.inl ⟨_, rfl⟩
    · next built hbuilt =>
      have hlen : ((List.range env.cntx.batch.toNat).map inp.draws).length =
          (allocBurst env.cntx.batch.toNat pool).length := by
        rw [List.length_map, List.length_range, length_allocBurst]
      have hids : built.map Mbuf.id = (allocBurst env.cntx.batch.toNat pool).map Mbuf.id := by
        have hsnd := congrArg (List.map Mbuf.id) (List.map_snd_zip (le_of_eq hlen.symm))
        rw [List.map_map] at hsnd
        exact (buildBurst_ids hbuilt).trans hsnd
      refine Or.inr ⟨_, ⟨_, built, k, selectedQ.toNat, txBurst inp.willing env.cntx.batch.toNat,
        decide (inp.endTime > st.startTime + 0 * env.hz), hids⟩, rfl, rfl, rfl, txBurst_le _ _,
        ?_, ?_⟩
      · unfold Counted
        split <;> exact ⟨rfl, rfl⟩
      · split <;> exact ⟨rfl, rfl, rfl, rfl⟩

/-- **An iteration of the transmit loop.** It does nothing that can be seen, or the process ends
while a burst is written, or a burst goes out on the queue of the current flow. -/
theorem transmitStep_cases (env : ClientEnv) (st : TransmitState) (inp : TransmitInput) :
    (∃ st', transmitStep env st inp = (st', []) ∧ SameCounts st st' ∧ Steered env.cntx st st') ∨
    (∃ st' bufs, transmitStep env st inp = (st', [.alloc bufs]) ∧ st'.pc = .aborted ∧
      SameCounts st st' ∧ Steered env.cntx st st') ∨
    ∃ st', ∃ b : SentBurst, transmitStep env st inp = (st', b.events env.cntx) ∧
      st.selectedDst = 0 ∧ b.qid = (st.flowQ st.flow).toNat ∧ b.nbTx ≤ env.cntx.batch.toNat ∧
      Counted st st' b.k b.nbTx env.cntx.batch.toNat b.measured ∧ Steered env.cntx st st' := by
  obtain ⟨hcounts, hplace⟩ := checkDuration_same env.hz st inp
  unfold transmitStep
  split
  · exact Or.inl ⟨st, rfl, ⟨rfl, rfl⟩, Or.inl ⟨rfl, rfl, rfl, rfl⟩⟩
  · simp only []
    split
    · unfold trySend
      simp only []
      split
      · exact Or.inl ⟨_, rfl, hcounts, Or.inl hplace.abort⟩
      · next hdst =>
        have hzero : st.selectedDst = 0 := by
          rw [← hplace.selectedDst]
          exact not_not.mp hdst
        obtain ⟨hcounts', hplace'⟩ :=
          resetWindow_same env ((st.checkDuration env.hz inp).selectNext env.cntx) inp.endTime
        have hnext := (hplace.selectNext env.cntx).trans hplace'
        have hsame : SameCounts st (((st.checkDuration env.hz inp).selectNext env.cntx).resetWindow
            env inp.endTime) :=
          ⟨hcounts'.1.trans hcounts.1, hcounts'.2.trans hcounts.2⟩
        split
        · exact Or.inl ⟨_, rfl, hsame, Or.inr ⟨hzero, hnext⟩⟩
        · rcases transmitBurst_cases env _ inp (st.checkDuration env.hz inp).selectedDst
            (st.checkDuration env.hz inp).flow
            ((st.checkDuration env.hz inp).flowQ (st.checkDuration env.hz inp).flow) with
            he | ⟨bufs, he⟩ | ⟨st', b, he, hk, hq, hle, hcnt, hpl⟩
          · exact Or.inl ⟨_, he, hsame, Or.inr ⟨hzero, hnext⟩⟩
          · exact Or.inr (Or.inl ⟨_, bufs, he, rfl, hsame, Or.inr ⟨hzero, hnext.abort⟩⟩)
          · refine Or.inr (Or.inr ⟨st', b, he, hzero, ?_, hle, hcnt.of_same hsame,
              Or.inr ⟨hzero, hnext.trans hpl⟩⟩)
            rw [hq, hplace.flowQ, hplace.flow]
    · exact Or.inl ⟨_, rfl, hcounts, Or.inl hplace⟩

/-- A transmit loop that has ended does nothing more. -/
theorem transmitStep_ended {env : ClientEnv} {st : TransmitState} (h : st.pc ≠ .loop)
    (inp : TransmitInput) : transmitStep env st inp = (st, []) := by
  rw [transmitStep, if_pos h]

/-! ## The receiver thread -/

/-- Nothing but answers to ARP requests and packets counted. -/
def Silent (events : List ClientEvent) : Prop :=
  ∀ e ∈ events, (∃ args sent, e = .arp args sent) ∨ ∃ k timestamp, e = .received k timestamp

/-- Each of the six paths through the body ends with the one `rte_pktmbuf_free`, and with
`_RX_JUST_DROP` there is nothing before it. -/
theorem receiverPacket_frees (log : ℚ → ℚ) (hz : UInt64) (build : ClientBuild) (cntx : Context)
    (now : UInt64) (st : ReceiverState) (buf : Mbuf) (sent : Bool) :
    ∃ silent, Silent silent ∧ (build.rxJustDrop = true → silent = []) ∧
      (receiverPacket log hz build cntx now st buf).2.map (ReceiverEvent.toClient sent) =
        silent ++ [.free buf] := by
  have hnil : Silent [] := fun e he => absurd he List.not_mem_nil
  unfold receiverPacket
  split
  · exact ⟨[], hnil, fun _ => rfl, rfl⟩
  · next hdrop =>
    simp only []
    split
    · refine ⟨(checkEthHdr cntx.srcIp cntx.myEth buf).reply.toList.map fun args => .arp args sent,
        ?_, fun h => absurd h hdrop, ?_⟩
      · intro e he
        obtain ⟨args, -, rfl⟩ := List.mem_map.mp he
        exact Or.inl ⟨args, sent, rfl⟩
      · rw [List.map_append, List.map_map]
        rfl
    · split
      · exact ⟨[], hnil, fun _ => rfl, rfl⟩
      · split
        · exact ⟨[], hnil, fun _ => rfl, rfl⟩
        · next k hk =>
          split
          · exact ⟨[], hnil, fun _ => rfl, rfl⟩
          · refine ⟨[.received k _], ?_, fun h => absurd h hdrop, rfl⟩
            intro e he
            exact Or.inr ⟨k, _, List.mem_singleton.mp he⟩

end DpdkEcho
