import DpdkEcho.Properties.ClientAddr
import DpdkEcho.Properties.ClientSteps
import DpdkEcho.Properties.FrameDecode

/-!
# The packets of a burst

The builders change `pkt_info` in place, and the loop of `do_client` that creates a burst sets it
back after every packet. So each packet depends on its own draw only.

* `burstPacket_spec`: one turn
* `burstTrace_spec`: the loop
* `burst_packets_independent`: the burst of an iteration
-/

namespace DpdkEcho

open Infra

/-- The loop that creates the burst, with `pkt_info` as each turn leaves it. -/
def burstTrace (env : ClientEnv) (dstIp : UInt32) (dstPort : UInt16) :
    PreparePacketInfo → List (Draws × Mbuf) → Option (List (Mbuf × PreparePacketInfo))
  | _, [] => some []
  | info, (draws, buf) :: rest => do
    let (buf, info) ← burstPacket env dstIp dstPort info draws buf
    let turns ← burstTrace env dstIp dstPort info rest
    return (buf, info) :: turns

/-- The trace has the packets of the burst. -/
theorem buildBurst_eq_trace (env : ClientEnv) (dstIp : UInt32) (dstPort : UInt16) :
    ∀ (pairs : List (Draws × Mbuf)) (info : PreparePacketInfo),
      buildBurst env dstIp dstPort info pairs
        = (burstTrace env dstIp dstPort info pairs).map fun turns => turns.map Prod.fst
  | [], _ => rfl
  | (draws, buf) :: rest, info => by
    rw [buildBurst, burstTrace]
    cases burstPacket env dstIp dstPort info draws buf with
    | none => rfl
    | some r =>
      simp only [Option.bind_eq_bind, Option.bind_some, buildBurst_eq_trace env dstIp dstPort rest]
      cases burstTrace env dstIp dstPort r.2 rest <;> rfl

/-! ## One packet -/

/-- The packet has the addresses that `info` gives a packet of this rank. -/
def PacketOfRank (info : PreparePacketInfo) (rank : Int) (pkt : Mbuf) : Prop :=
  ∃ view, decodeFrame pkt.data pkt.dataLen = some view ∧
    view.ip.srcIp = (addrOfRank info rank).1 ∧ view.transport.srcPort = (addrOfRank info rank).2 ∧
    view.ip.dstIp = info.dstIp ∧ view.transport.dstPort = info.dstPort

/-- The bytes of a packet of the burst. -/
def burstFrameLength (build : ClientBuild) (katran : UInt32) (info : PreparePacketInfo) : Nat :=
  if build.useTcp then l2Len info.useVlan + 40 + sizeTcpOpts katran + info.payloadLength.toNat
  else l2Len info.useVlan + 28 + info.payloadLength.toNat

section
variable {build : ClientBuild} {katran : UInt32} {info info' : PreparePacketInfo} {draws : Draws}
  {id payload : Nat} {mem : Mem} {buf : Mbuf}

theorem preparePacket_built (id : Nat) (mem : Mem)
    (hsel : selectClientAddr info draws.rank = some info')
    (hfit : burstFrameLength build katran info ≤ 2048) :
    ∃ buf payload, preparePacket build katran info draws (Mbuf.alloc id mem)
      = some (buf, info', some payload) := by
  unfold burstFrameLength at hfit
  unfold preparePacket
  split
  · next htcp =>
    rw [if_pos htcp] at hfit
    exact prepareTcp_built hsel hfit
  · next hudp =>
    rw [if_neg hudp] at hfit
    exact prepareUdp_built hsel hfit

theorem preparePacket_selected
    (h : preparePacket build katran info draws (Mbuf.alloc id mem)
      = some (buf, info', some payload)) : selectClientAddr info draws.rank = some info' := by
  unfold preparePacket at h
  split at h
  · exact prepareTcp_selected h
  · exact prepareUdp_selected h

/-- The packet of either builder, whatever is written into its payload. -/
theorem preparePacket_addrs {m : Mem}
    (h : preparePacket build katran info draws (Mbuf.alloc id mem)
      = some (buf, info', some payload)) (hm : ∀ a, a < payload → m a = buf.data a) :
    ∃ view, decodeFrame m buf.dataLen = some view ∧
      view.ip.srcIp = info'.srcIp ∧ view.transport.srcPort = info'.srcPort ∧
      view.ip.dstIp = info.dstIp ∧ view.transport.dstPort = info.dstPort := by
  unfold preparePacket at h
  split at h
  · obtain ⟨view, tcp, hview, hok, htrans, hsrc, hdst, -⟩ := prepareTcp_frameOk h hm
    refine ⟨view, hview, hok.ips.1, ?_, hok.ips.2, ?_⟩
    · rw [htrans]
      exact hsrc
    · rw [htrans]
      exact hdst
  · obtain ⟨view, hview, hok, htrans⟩ := prepareUdp_frameOk h hm
    refine ⟨view, hview, hok.ips.1, ?_, hok.ips.2, ?_⟩ <;>
      rw [htrans] <;> rfl

theorem preparePacket_ofRank {m : Mem} (hz : info.clientAddressSelection = .zipfClientAddr)
    (h : preparePacket build katran info draws (Mbuf.alloc id mem)
      = some (buf, info', some payload)) (hm : ∀ a, a < payload → m a = buf.data a) :
    PacketOfRank info draws.rank { buf with data := m } := by
  have hsel := preparePacket_selected h
  have hp : info.countPort ≠ 0 := fun hp => by
    rw [selectClientAddr_zero hz hp] at hsel
    cases hsel
  rw [selectClientAddr_zipf hz hp] at hsel
  cases hsel
  exact preparePacket_addrs h hm

/-- The payload writers write from the payload pointer on. -/
theorem writePayload_below {rodata m : Mem} {len : Int} {a : Nat} (ha : a < payload) :
    writePayload build rodata m payload len draws a = m a := by
  have hnum : ∀ n num, payloadConstantNum rodata m payload n num a = m a := fun n num => by
    rw [payloadConstantNum, store_of_not_mem (by omega)]
    exact store_of_not_mem (by omega)
  unfold writePayload
  split
  · exact hnum _ _
  · exact hnum _ _

end

/-! ## The loop -/

section
variable {env : ClientEnv} {dstIp : UInt32} {dstPort : UInt16} {info : PreparePacketInfo}

/-- The packet goes to this destination. -/
def PacketTo (dstIp : UInt32) (dstPort : UInt16) (pkt : Mbuf) : Prop :=
  ∃ view, decodeFrame pkt.data pkt.dataLen = some view ∧
    view.ip.dstIp = dstIp ∧ view.transport.dstPort = dstPort

theorem burstPacket_to (hip : info.dstIp = dstIp) (hport : info.dstPort = dstPort) {draws : Draws}
    {id : Nat} {mem : Mem} {pkt : Mbuf} {info' : PreparePacketInfo}
    (h : burstPacket env dstIp dstPort info draws (Mbuf.alloc id mem) = some (pkt, info')) :
    PacketTo dstIp dstPort pkt ∧ info'.dstIp = dstIp ∧ info'.dstPort = dstPort := by
  rw [burstPacket] at h
  obtain ⟨⟨buf, sel, payload⟩, hprep, h⟩ := Option.bind_eq_some_iff.mp h
  obtain ⟨off, rfl, h⟩ := Option.bind_eq_some_iff.mp h
  cases h
  obtain ⟨view, hview, -, -, hto⟩ :=
    preparePacket_addrs hprep fun a ha => @writePayload_below env.build draws off env.rodata
      buf.data env.cntx.payloadLength a ha
  rw [hip, hport] at hto
  exact ⟨⟨view, hview, hto⟩, rfl, rfl⟩

/-- Every packet of a burst goes to the destination of the burst, wherever it comes from. -/
theorem buildBurst_to (hip : info.dstIp = dstIp) (hport : info.dstPort = dstPort) :
    ∀ {pairs : List (Draws × Mbuf)} {built : List Mbuf},
      (∀ p ∈ pairs, ∃ id mem, p.2 = Mbuf.alloc id mem) →
      buildBurst env dstIp dstPort info pairs = some built →
      ∀ pkt ∈ built, PacketTo dstIp dstPort pkt := by
  intro pairs
  induction pairs generalizing info with
  | nil =>
    intro built _ h
    cases h
    exact fun pkt hmem => absurd hmem List.not_mem_nil
  | cons p rest ih =>
    intro built hfresh h pkt hmem
    obtain ⟨draws, buf⟩ := p
    obtain ⟨id, mem, hbuf⟩ := hfresh _ List.mem_cons_self
    obtain rfl : buf = Mbuf.alloc id mem := hbuf
    rw [buildBurst] at h
    obtain ⟨⟨first, info'⟩, hpkt, h⟩ := Option.bind_eq_some_iff.mp h
    obtain ⟨tail, htail, h⟩ := Option.bind_eq_some_iff.mp h
    cases h
    obtain ⟨hto, hip', hport'⟩ := burstPacket_to hip hport hpkt
    rcases List.mem_cons.mp hmem with rfl | hmem
    · exact hto
    · exact ih hip' hport' (fun p hp => hfresh p (List.mem_cons_of_mem _ hp)) htail pkt hmem

/-- `pkt_info` of a burst: its addresses are those the loop sets it back to. -/
structure BurstInfo (env : ClientEnv) (dstIp : UInt32) (dstPort : UInt16)
    (info : PreparePacketInfo) : Prop where
  zipf : info.clientAddressSelection = .zipfClientAddr
  srcIp : info.srcIp = env.cntx.srcIp
  srcPort : info.srcPort = env.cntx.srcPort
  dstIp : info.dstIp = dstIp
  dstPort : info.dstPort = dstPort

/-- **One turn of the loop.** The packet has the addresses of its own rank, and `pkt_info` is what
it was before. -/
theorem burstPacket_spec (hinfo : BurstInfo env dstIp dstPort info) {draws : Draws} {id : Nat}
    {mem : Mem} {pkt : Mbuf} {info' : PreparePacketInfo}
    (h : burstPacket env dstIp dstPort info draws (Mbuf.alloc id mem) = some (pkt, info')) :
    info' = info ∧ PacketOfRank info draws.rank pkt := by
  rw [burstPacket] at h
  obtain ⟨⟨buf, sel, payload⟩, hprep, h⟩ := Option.bind_eq_some_iff.mp h
  obtain ⟨off, rfl, h⟩ := Option.bind_eq_some_iff.mp h
  cases h
  have hsel := selectClientAddr_spec (preparePacket_selected hprep)
  refine ⟨?_, preparePacket_ofRank hinfo.zipf hprep fun a ha => writePayload_below ha⟩
  rw [hsel, ← hinfo.srcIp, ← hinfo.srcPort, ← hinfo.dstIp, ← hinfo.dstPort]

theorem burstPacket_built (hinfo : BurstInfo env dstIp dstPort info) (hp : info.countPort ≠ 0)
    (hfit : burstFrameLength env.build env.client.addKatranOpt info ≤ 2048) (draws : Draws)
    (id : Nat) (mem : Mem) : ∃ pkt,
      burstPacket env dstIp dstPort info draws (Mbuf.alloc id mem) = some (pkt, info) := by
  obtain ⟨buf, payload, hprep⟩ :=
    preparePacket_built id mem (@selectClientAddr_zipf info draws.rank hinfo.zipf hp) hfit
  have hsome : ∃ r, burstPacket env dstIp dstPort info draws (Mbuf.alloc id mem) = some r := by
    rw [burstPacket, hprep]
    exact ⟨_, rfl⟩
  obtain ⟨⟨pkt, info'⟩, h⟩ := hsome
  obtain ⟨rfl, -⟩ := burstPacket_spec hinfo h
  exact ⟨pkt, h⟩

/-- What a turn makes of a draw. -/
def TurnOk (info : PreparePacketInfo) (p : Draws × Mbuf) (turn : Mbuf × PreparePacketInfo) : Prop :=
  turn.2 = info ∧ PacketOfRank info p.1.rank turn.1

/-- **The loop.** Each turn starts from the same `pkt_info`. -/
theorem burstTrace_spec (hinfo : BurstInfo env dstIp dstPort info) :
    ∀ {pairs : List (Draws × Mbuf)} {turns : List (Mbuf × PreparePacketInfo)},
      (∀ p ∈ pairs, ∃ id mem, p.2 = Mbuf.alloc id mem) →
      burstTrace env dstIp dstPort info pairs = some turns →
      List.Forall₂ (TurnOk info) pairs turns
  | [], _, _, h => by
    cases h
    exact List.Forall₂.nil
  | (draws, buf) :: rest, turns, hfresh, h => by
    obtain ⟨id, mem, hbuf⟩ := hfresh _ List.mem_cons_self
    obtain rfl : buf = Mbuf.alloc id mem := hbuf
    rw [burstTrace] at h
    obtain ⟨⟨pkt, info'⟩, hpkt, h⟩ := Option.bind_eq_some_iff.mp h
    obtain ⟨tail, htail, h⟩ := Option.bind_eq_some_iff.mp h
    cases h
    obtain ⟨hsame, hok⟩ := burstPacket_spec hinfo hpkt
    rw [hsame] at htail
    exact List.Forall₂.cons ⟨hsame, hok⟩
      (burstTrace_spec hinfo (fun p hp => hfresh p (List.mem_cons_of_mem _ hp)) htail)

theorem burstTrace_built (hinfo : BurstInfo env dstIp dstPort info) (hp : info.countPort ≠ 0)
    (hfit : burstFrameLength env.build env.client.addKatranOpt info ≤ 2048) :
    ∀ {pairs : List (Draws × Mbuf)}, (∀ p ∈ pairs, ∃ id mem, p.2 = Mbuf.alloc id mem) →
      ∃ turns, burstTrace env dstIp dstPort info pairs = some turns
  | [], _ => ⟨[], rfl⟩
  | (draws, buf) :: rest, hfresh => by
    obtain ⟨id, mem, hbuf⟩ := hfresh _ List.mem_cons_self
    obtain rfl : buf = Mbuf.alloc id mem := hbuf
    obtain ⟨pkt, hpkt⟩ := burstPacket_built hinfo hp hfit draws id mem
    obtain ⟨tail, htail⟩ :=
      burstTrace_built hinfo hp hfit fun p hp => hfresh p (List.mem_cons_of_mem _ hp)
    refine ⟨(pkt, info) :: tail, ?_⟩
    rw [burstTrace, hpkt]
    simp only [Option.bind_eq_bind, Option.bind_some, htail]
    rfl

end

/-! ## The burst of an iteration -/

/-- The draws and fresh buffers of a burst. -/
def burstPairs (burst : Nat) (pool : Nat → Nat × Mem) (draws : Nat → Draws) :
    List (Draws × Mbuf) :=
  ((List.range burst).map draws).zip (allocBurst burst pool)

@[simp] theorem burstPairs_length (burst : Nat) (pool : Nat → Nat × Mem) (draws : Nat → Draws) :
    (burstPairs burst pool draws).length = burst := by
  simp [burstPairs, allocBurst]

theorem burstPairs_get (burst : Nat) (pool : Nat → Nat × Mem) (draws : Nat → Draws) {j : Nat}
    (hj : j < (burstPairs burst pool draws).length) :
    (burstPairs burst pool draws).get ⟨j, hj⟩
      = (draws j, Mbuf.alloc (pool j).1 (pool j).2) := by
  simp [burstPairs, allocBurst]

theorem burstPairs_fresh (burst : Nat) (pool : Nat → Nat × Mem) (draws : Nat → Draws) :
    ∀ p ∈ burstPairs burst pool draws, ∃ id mem, p.2 = Mbuf.alloc id mem := by
  intro p hp
  obtain ⟨j, hj, rfl⟩ := List.getElem_of_mem hp
  have hget := burstPairs_get burst pool draws hj
  rw [List.get_eq_getElem] at hget
  exact ⟨_, _, congrArg Prod.snd hget⟩

/-- `pkt_info` of a client that draws its source addresses. -/
theorem pktInfo_burstInfo {env : ClientEnv} (hzipf : env.client.selectSrcIp = true)
    (serverEth : EtherAddr) (dstIp : UInt32) (dstPort tci : UInt16) :
    BurstInfo env dstIp dstPort (pktInfo env.client env.cntx serverEth dstIp dstPort tci) :=
  ⟨by simp [pktInfo, hzipf], rfl, rfl, rfl, rfl⟩

/-- Such a client builds every burst whose frames fit the buffers. -/
theorem buildBurst_zipf {env : ClientEnv} (hzipf : env.client.selectSrcIp = true)
    (hports : env.client.uniqueClientPorts ≠ 0) (serverEth : EtherAddr) (dstIp : UInt32)
    (dstPort tci : UInt16) (burst : Nat) (pool : Nat → Nat × Mem) (draws : Nat → Draws)
    (hfit : burstFrameLength env.build env.client.addKatranOpt
      (pktInfo env.client env.cntx serverEth dstIp dstPort tci) ≤ 2048) :
    ∃ built, buildBurst env dstIp dstPort (pktInfo env.client env.cntx serverEth dstIp dstPort tci)
      (burstPairs burst pool draws) = some built := by
  have hp : (pktInfo env.client env.cntx serverEth dstIp dstPort tci).countPort ≠ 0 := by
    intro hp
    have hnat := congrArg UInt64.toNat hp
    simp only [pktInfo, UInt32.toNat_toUInt64, UInt64.toNat_zero] at hnat
    exact hports (UInt32.toNat_inj.mp hnat)
  obtain ⟨turns, hturns⟩ := burstTrace_built (pktInfo_burstInfo hzipf serverEth dstIp dstPort tci)
    hp hfit (burstPairs_fresh burst pool draws)
  exact ⟨_, by rw [buildBurst_eq_trace, hturns]; rfl⟩

theorem buildBurst_length {env : ClientEnv} {dstIp : UInt32} {dstPort : UInt16}
    {info : PreparePacketInfo} {burst : Nat} {pool : Nat → Nat × Mem} {draws : Nat → Draws}
    {built : List Mbuf}
    (h : buildBurst env dstIp dstPort info (burstPairs burst pool draws) = some built) :
    built.length = burst := by
  have hids := congrArg List.length (buildBurst_ids h)
  rwa [List.length_map, List.length_map, burstPairs_length] at hids

/-- An iteration that is not held back hands its burst to the driver, and the loop goes on. -/
theorem transmitStep_sends {env : ClientEnv} {st : TransmitState} {inp : TransmitInput}
    {pool : Nat → Nat × Mem} {built : List Mbuf} (hpc : st.pc = .loop) (hsend : st.canSend = true)
    (hduration : st.duration = 0) (hzero : st.selectedDst = 0)
    (hopen : env.cntx.rateLimit = true →
      ((((st.selectNext env.cntx).resetWindow env inp.endTime).throughput st.flow).toNat : ℚ)
        ≤ limitWindow env (st.deltaTime inp.endTime))
    (hpool : inp.pool = some pool)
    (hbuilt : buildBurst env (env.cntx.dstIps.getD 0 0) (nextPort env.cntx st.dstPort).toUInt16
      (pktInfo env.client env.cntx (env.serverEth 0) (env.cntx.dstIps.getD 0 0)
        (nextPort env.cntx st.dstPort).toUInt16 (getTci 3 0 100))
      (burstPairs env.cntx.batch.toNat pool inp.draws) = some built) :
    ∃ st' qid measured rest, transmitStep env st inp
        = (st', [.alloc (allocBurst env.cntx.batch.toNat pool),
          .tx 0 qid (built.take (txBurst inp.willing env.cntx.batch.toNat)) measured] ++ rest) ∧
      st'.pc = .loop ∧ st'.canSend = true ∧ st'.duration = 0 := by
  have htime : st.checkDuration env.hz inp = st := by
    rw [TransmitState.checkDuration, if_neg]
    rintro ⟨hpos, -⟩
    rw [hduration] at hpos
    exact absurd hpos (UInt64.lt_irrefl 0)
  have hheld : ¬ (env.cntx.rateLimit = true ∧
      ((((st.selectNext env.cntx).resetWindow env inp.endTime).throughput st.flow).toNat : ℚ)
        > limitWindow env ((st.selectNext env.cntx).deltaTime inp.endTime)) :=
    fun h => absurd h.2 (not_lt.mpr (hopen h.1))
  have hloop : ((st.selectNext env.cntx).resetWindow env inp.endTime).pc = .loop ∧
      ((st.selectNext env.cntx).resetWindow env inp.endTime).canSend = true ∧
      ((st.selectNext env.cntx).resetWindow env inp.endTime).duration = 0 ∧
      ((st.selectNext env.cntx).resetWindow env inp.endTime).dstPort
        = nextPort env.cntx st.dstPort := by
    rw [TransmitState.resetWindow]
    split <;> exact ⟨hpc, hsend, hduration, rfl⟩
  rw [transmitStep, if_neg (not_not.mpr hpc), htime, if_pos ⟨hpc, hsend⟩, trySend,
    if_neg (not_not.mpr hzero), if_neg hheld, hzero]
  generalize (st.selectNext env.cntx).resetWindow env inp.endTime = st2 at hloop ⊢
  obtain ⟨hpc2, hsend2, hduration2, hport⟩ := hloop
  rw [transmitBurst, hpool, hport]
  simp only [burstPairs] at hbuilt
  simp only [hbuilt, List.append_assoc]
  refine ⟨_, _, _, _, rfl, ?_⟩
  split <;> exact ⟨hpc2, hsend2, hduration2⟩

/-- A client that draws its source addresses and is not held back sends in every iteration. -/
theorem transmitStep_sends_zipf {env : ClientEnv} {st : TransmitState} {inp : TransmitInput}
    {pool : Nat → Nat × Mem} (hzipf : env.client.selectSrcIp = true)
    (hports : env.client.uniqueClientPorts ≠ 0)
    (hfit : ∀ dstPort, burstFrameLength env.build env.client.addKatranOpt
      (pktInfo env.client env.cntx (env.serverEth 0) (env.cntx.dstIps.getD 0 0) dstPort
        (getTci 3 0 100)) ≤ 2048)
    (hpc : st.pc = .loop) (hsend : st.canSend = true) (hduration : st.duration = 0)
    (hzero : st.selectedDst = 0)
    (hopen : env.cntx.rateLimit = true →
      ((((st.selectNext env.cntx).resetWindow env inp.endTime).throughput st.flow).toNat : ℚ)
        ≤ limitWindow env (st.deltaTime inp.endTime))
    (hpool : inp.pool = some pool) :
    ∃ st' qid taken measured rest, transmitStep env st inp
        = (st', [.alloc (allocBurst env.cntx.batch.toNat pool), .tx 0 qid taken measured] ++ rest) ∧
      taken.length = txBurst inp.willing env.cntx.batch.toNat ∧
      st'.pc = .loop ∧ st'.canSend = true ∧ st'.duration = 0 := by
  obtain ⟨built, hbuilt⟩ := buildBurst_zipf hzipf hports (env.serverEth 0)
    (env.cntx.dstIps.getD 0 0) (nextPort env.cntx st.dstPort).toUInt16 (getTci 3 0 100)
    env.cntx.batch.toNat pool inp.draws (hfit _)
  obtain ⟨st', qid, measured, rest, h, hloop⟩ :=
    transmitStep_sends hpc hsend hduration hzero hopen hpool hbuilt
  refine ⟨st', qid, _, measured, rest, h, ?_, hloop⟩
  rw [List.length_take, buildBurst_length hbuilt]
  exact Nat.min_eq_left (txBurst_le _ _)

/--
**The packets of a burst are independent.** For every burst, every sequence of draws and both
builders: packet `j` has the source address and port of its own rank and the destination of the
burst, and `pkt_info` is back to its initial value after every packet. The burst is built whenever
there is a port to divide by and the frames fit the buffers.
-/
theorem burst_packets_independent (env : ClientEnv) (hzipf : env.client.selectSrcIp = true)
    (serverEth : EtherAddr) (dstIp : UInt32) (dstPort tci : UInt16) (burst : Nat)
    (pool : Nat → Nat × Mem) (draws : Nat → Draws) :
    let info := pktInfo env.client env.cntx serverEth dstIp dstPort tci
    let pairs := burstPairs burst pool draws
    (env.client.uniqueClientPorts ≠ 0 →
      burstFrameLength env.build env.client.addKatranOpt info ≤ 2048 →
        ∃ built, buildBurst env dstIp dstPort info pairs = some built) ∧
    ∀ built, buildBurst env dstIp dstPort info pairs = some built →
      built.length = burst ∧
      ∃ turns, burstTrace env dstIp dstPort info pairs = some turns ∧
        built = turns.map Prod.fst ∧
        ∀ j (hj : j < turns.length), (turns.get ⟨j, hj⟩).2 = info ∧
          ∃ view, decodeFrame (turns.get ⟨j, hj⟩).1.data (turns.get ⟨j, hj⟩).1.dataLen
              = some view ∧
            view.ip.srcIp = env.cntx.srcIp + UInt32.ofNat
              (srcIdx (draws j).rank / env.client.uniqueClientPorts.toNat) ∧
            view.transport.srcPort = env.cntx.srcPort + UInt16.ofNat
              (srcIdx (draws j).rank % env.client.uniqueClientPorts.toNat) ∧
            view.ip.dstIp = dstIp ∧ view.transport.dstPort = dstPort := by
  intro info pairs
  have hinfo : BurstInfo env dstIp dstPort info :=
    pktInfo_burstInfo hzipf serverEth dstIp dstPort tci
  have hcount : info.countPort.toNat = env.client.uniqueClientPorts.toNat := by
    simp [info, pktInfo]
  have hfresh := burstPairs_fresh burst pool draws
  refine ⟨fun hports hfit => ?_, fun built hbuilt => ?_⟩
  · exact buildBurst_zipf hzipf hports serverEth dstIp dstPort tci burst pool draws hfit
  · rw [buildBurst_eq_trace] at hbuilt
    obtain ⟨turns, hturns, rfl⟩ := Option.map_eq_some_iff.mp hbuilt
    have hall := burstTrace_spec hinfo hfresh hturns
    have hlen : turns.length = burst := by
      rw [← hall.length_eq, burstPairs_length]
    refine ⟨by rw [List.length_map, hlen], turns, hturns, rfl, fun j hj => ?_⟩
    have hj' : j < pairs.length := by rwa [hall.length_eq]
    obtain ⟨hsame, view, hview, hsrcIp, hsrcPort, hdst⟩ := (List.forall₂_iff_get.mp hall).2 j hj' hj
    rw [burstPairs_get, addrOfRank, hcount] at hsrcIp hsrcPort
    exact ⟨hsame, view, hview, hsrcIp, hsrcPort, hdst⟩

/-- A TCP client with ten source addresses on five ports. -/
def zipfClientEnv : ClientEnv where
  hz := 1000
  build := .clientTcpTimestamp
  client := zipfClient 10 5
  cntx := sampleClient [0x0A000002]
  serverEth := fun _ => broadcastMac
  rodata := fun _ => 0
  log := fun x => x

/-- The ranks 1 and 7. -/
def twoDraws (j : Nat) : Draws := { rank := 6 * j + 1, myrand := 0, timestamp := 0, num := 1 }

/-- The second packet of a burst comes from the next address and the next port. -/
theorem burst_packets_sample : ∃ first second view,
    buildBurst zipfClientEnv 0x0A000002 8080
      (pktInfo zipfClientEnv.client zipfClientEnv.cntx broadcastMac 0x0A000002 8080 0)
      (burstPairs 2 (fun j => (j, fun _ => 0)) twoDraws) = some [first, second] ∧
    decodeFrame second.data second.dataLen = some view ∧
    view.ip.srcIp = 0x0A000002 ∧ view.transport.srcPort = 3001 := by
  obtain ⟨hbuilt, hall⟩ := burst_packets_independent zipfClientEnv rfl broadcastMac 0x0A000002 8080
    0 2 (fun j => (j, fun _ => 0)) twoDraws
  obtain ⟨built, h⟩ := hbuilt (by decide) (by decide)
  obtain ⟨hlen, turns, -, rfl, hturn⟩ := hall built h
  match turns, hlen, h, hturn with
  | [t1, t2], _, h, hturn =>
    obtain ⟨-, view, hview, hip, hport, -⟩ := hturn 1 (by simp)
    exact ⟨t1.1, t2.1, view, h, hview, hip, hport⟩

end DpdkEcho
