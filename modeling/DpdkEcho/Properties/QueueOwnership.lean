import DpdkEcho.Main
import DpdkEcho.Properties.ArpHandshake
import DpdkEcho.Properties.ClientSteps

/-!
# Whose queues a client worker uses

`main` gives each worker a range of queues. The transmit loop sends on the queue of its flow and
the receiver polls the worker's range, so these two stay inside. Address resolution does not: a
request goes out on queue 0 and the replies are looked for from queue 0 on, whatever range the
worker has (`get_dst_mac` does not use the queue it is given), and so does the answer that
`check_eth_hdr` sends on behalf of the receiver.

Every other number comes from a slot of `flow_q` that was filled. With no slot at all the first
iteration reads memory that was not initialised.
-/

namespace DpdkEcho

open Infra

/-- `[default_qid, default_qid + count_queues)` -/
def Owns (w : Context) (q : Nat) : Prop := w.defaultQid ≤ q ∧ q < w.defaultQid + w.countQueues

/-- What `main` guarantees about the context of a client worker. -/
structure WellPlaced (w : Context) : Prop where
  countQueues_pos : 0 < w.countQueues
  range_lt : w.defaultQid + w.countQueues < 2 ^ 16
  basePort_lt : w.basePortNumber.toNat < 2 ^ 16

/-- `do_client` gets as far as using a queue: it has a destination, the burst fits its array, and
the `uint16_t` counter of the loop that fills the tables gets to the end. -/
def Starts (w : Context) : Prop :=
  1 ≤ w.dstIps.length ∧ w.batch.toNat ≤ maxBurstSize ∧ (flowSlots w).toNat < 2 ^ 16

/-- The worker has nothing to do with ARP: it resolves no address, and either there is no receiver
or the receiver drops all packets unseen. -/
def AvoidsArp (build : ClientBuild) (w : Context) : Prop :=
  w.doArp = false ∧ (w.bidi = false ∨ build.rxJustDrop = true)

/-! ## The tables -/

/-- The queue of slot `j`. -/
def slotQueue (w : Context) (j : Nat) : UInt16 :=
  UInt16.ofNat (w.defaultQid + j % (w.countQueues % 2 ^ 16))

theorem toNat_pos_of_ne_zero {a : UInt32} (h : a ≠ 0) : 0 < a.toNat :=
  Nat.pos_of_ne_zero fun h0 => h (UInt32.toNat_inj.mp h0)

section
variable {w : Context}

theorem slotQueue_owned (hw : WellPlaced w) (j : Nat) : Owns w (slotQueue w j).toNat := by
  have hrange := hw.range_lt
  have hmod : w.countQueues % 2 ^ 16 = w.countQueues := Nat.mod_eq_of_lt (by omega)
  have hlt := Nat.mod_lt j hw.countQueues_pos
  have hval : (slotQueue w j).toNat = w.defaultQid + j % w.countQueues := by
    rw [slotQueue, hmod, UInt16.toNat_ofNat_of_lt' (by rw [UInt16.size]; omega)]
  rw [Owns, hval]
  omega

/-- A slot after the loop has passed it. -/
def SlotFilled (w : Context) (t : FlowTables) (j : Nat) : Prop :=
  t.flowQ j = slotQueue w j ∧ t.throughput j = 0

/-- When the loop has ended, its counter has reached the number of slots, and all of them are
filled. A counter that wrapped around starts over from nothing. -/
theorem fillFlows_spec : ∀ {fuel : Nat} {i : UInt16} {t t' : FlowTables},
    fillFlows w fuel i t = some t' → (∀ j, j < i.toNat → SlotFilled w t j) →
    (flowSlots w).toNat < 2 ^ 16 ∧ ∀ j, j < (flowSlots w).toNat → SlotFilled w t' j
  | 0, _, _, _, h, _ => by cases h
  | fuel + 1, i, t, t', h, hfilled => by
    rw [fillFlows] at h
    split at h
    · refine fillFlows_spec h fun j hj => ?_
      by_cases hji : j = i.toNat
      · subst hji
        exact ⟨Function.update_self .., Function.update_self ..⟩
      · have hlt : j < i.toNat := by
          have hadd := UInt16.toNat_add i 1
          have hone : (1 : UInt16).toNat = 1 := rfl
          have hle := Nat.mod_le (i.toNat + 1) (2 ^ 16)
          omega
        have hne : (j : Int) ≠ i.toNat := fun heq => hji (Int.ofNat.inj heq)
        obtain ⟨hq, htp⟩ := hfilled j hlt
        exact ⟨(Function.update_of_ne hne _ _).trans hq, (Function.update_of_ne hne _ _).trans htp⟩
    · next hend =>
      cases h
      have hle : (flowSlots w).toNat ≤ i.toNat := by
        have hnot : ¬ i.toUInt32.toNat < (flowSlots w).toNat :=
          fun hlt => hend (UInt32.lt_iff_toNat_lt.mpr hlt)
        rw [UInt16.toNat_toUInt32] at hnot
        omega
      have hi := i.toNat_lt
      exact ⟨by omega, fun j hj => hfilled j (by omega)⟩

/-- The loop ends when the counter can reach the number of slots. -/
theorem fillFlows_total (hn : (flowSlots w).toNat < 2 ^ 16) :
    ∀ (d : Nat) (i : UInt16) (t : FlowTables), (flowSlots w).toNat - i.toNat ≤ d →
      ∃ t', fillFlows w (d + 1) i t = some t'
  | 0, i, t, h => by
    refine ⟨t, ?_⟩
    rw [fillFlows, if_neg fun hlt => ?_]
    have hlt := UInt32.lt_iff_toNat_lt.mp hlt
    rw [UInt16.toNat_toUInt32] at hlt
    omega
  | d + 1, i, t, h => by
    rw [fillFlows]
    split
    · next hlt =>
      have hlt := UInt32.lt_iff_toNat_lt.mp hlt
      rw [UInt16.toNat_toUInt32] at hlt
      refine fillFlows_total hn d (i + 1) _ ?_
      have hadd := UInt16.toNat_add i 1
      have hone : (1 : UInt16).toNat = 1 := rfl
      have hmod : (i.toNat + 1) % 2 ^ 16 = i.toNat + 1 := Nat.mod_eq_of_lt (by omega)
      omega
    · exact ⟨t, rfl⟩

end

/-! ## The transmit loop -/

/-- The tables are filled, a flow that is about to be used has a slot, and with one destination
the ports go round in their range. -/
structure InPlace (w : Context) (st : TransmitState) : Prop where
  filled : ∀ j, j < (flowSlots w).toNat → st.flowQ j = slotQueue w j
  slot : st.selectedDst = 0 → ∃ j, j < (flowSlots w).toNat ∧ st.flow = (j : Nat)
  port : w.dstIps.length = 1 → w.basePortNumber.toNat ≤ st.dstPort.toNat ∧
    st.dstPort.toNat < w.basePortNumber.toNat + w.countFlow.toNat

section
variable {w : Context} {st st' : TransmitState}

theorem InPlace.of_same (h : InPlace w st) (hs : SamePlace st st') : InPlace w st' where
  filled := by
    rw [hs.flowQ]
    exact h.filled
  slot := by
    rw [hs.selectedDst, hs.flow]
    exact h.slot
  port := by
    rw [hs.dstPort]
    exact h.port

/-- With one destination there are as many slots as flows. -/
theorem flowSlots_single (hone : w.dstIps.length = 1) : flowSlots w = w.countFlow := by
  rw [flowSlots, hone]
  exact UInt32.one_mul _

theorem nextPort_range (hw : WellPlaced w) (hpos : flowSlots w ≠ 0)
    (hlt : (flowSlots w).toNat < 2 ^ 16) (hone : w.dstIps.length = 1) {p : UInt32}
    (hp : w.basePortNumber.toNat ≤ p.toNat ∧
      p.toNat < w.basePortNumber.toNat + w.countFlow.toNat) :
    w.basePortNumber.toNat ≤ (nextPort w p).toNat ∧
      (nextPort w p).toNat < w.basePortNumber.toNat + w.countFlow.toNat := by
  rw [flowSlots_single hone] at hpos hlt
  have hbase := hw.basePort_lt
  have hflow := toNat_pos_of_ne_zero hpos
  have hnext : (p + 1).toNat = p.toNat + 1 := by
    rw [UInt32.toNat_add, show (1 : UInt32).toNat = 1 from rfl]
    exact Nat.mod_eq_of_lt (by omega)
  have hsum : (w.basePortNumber + w.countFlow).toNat =
      w.basePortNumber.toNat + w.countFlow.toNat := by
    rw [UInt32.toNat_add]
    exact Nat.mod_eq_of_lt (by omega)
  unfold nextPort
  split
  · omega
  · next hge =>
    have hnot : ¬ (w.basePortNumber + w.countFlow).toNat ≤ (p + 1).toNat :=
      fun hle => hge (UInt32.le_iff_toNat_le.mpr hle)
    omega

/-- An iteration that goes on from the first destination stays in place: with more than one
destination the next one is not the first, and with one the flow is the port's offset. -/
theorem InPlace.selectNext (hw : WellPlaced w) (hdst : 1 ≤ w.dstIps.length)
    (hpos : flowSlots w ≠ 0) (hlt : (flowSlots w).toNat < 2 ^ 16) (hzero : st.selectedDst = 0)
    (h : InPlace w st) : InPlace w (st.selectNext w) where
  filled := h.filled
  slot := by
    intro hsel
    have hone : w.dstIps.length = 1 := by
      have hmod : (st.selectedDst + 1) % w.dstIps.length = 0 := hsel
      rw [hzero] at hmod
      by_contra hne
      rw [Nat.mod_eq_of_lt (by omega)] at hmod
      cases hmod
    obtain ⟨hlo, hhi⟩ := nextPort_range hw hpos hlt hone (h.port hone)
    rw [flowSlots_single hone] at hlt ⊢
    refine ⟨(nextPort w st.dstPort).toNat - w.basePortNumber.toNat, by omega, ?_⟩
    have hoff : (nextPort w st.dstPort - w.basePortNumber).toNat =
        (nextPort w st.dstPort).toNat - w.basePortNumber.toNat :=
      UInt32.toNat_sub_of_le _ _ (UInt32.le_iff_toNat_le.mpr hlo)
    have hsel0 : (st.selectedDst + 1) % w.dstIps.length = 0 := hsel
    simp only [TransmitState.selectNext, hsel0]
    rw [show UInt32.ofNat 0 * w.countFlow = 0 from UInt32.zero_mul, UInt32.zero_add, hoff]
    exact Int.bmod_eq_of_le (by omega) (by omega)
  port := fun hone => nextPort_range hw hpos hlt hone (h.port hone)

theorem transmitInit_inPlace {env : ClientEnv} {tables : FlowTables} (now : UInt64)
    (hpos : flowSlots env.cntx ≠ 0)
    (hfilled : ∀ j, j < (flowSlots env.cntx).toNat → tables.flowQ j = slotQueue env.cntx j) :
    InPlace env.cntx (transmitInit env tables now) where
  filled := hfilled
  slot := fun _ => ⟨0, toNat_pos_of_ne_zero hpos, rfl⟩
  port := by
    intro hone
    rw [flowSlots_single hone] at hpos
    exact ⟨Nat.le_refl _, Nat.lt_add_of_pos_right (toNat_pos_of_ne_zero hpos)⟩

end

/-! ## The queues of an event list -/

theorem clientQueues_append (e f : List ClientEvent) :
    clientQueues (e ++ f) = clientQueues e ++ clientQueues f := List.flatMap_append

theorem mem_clientQueues {events : List ClientEvent} {q : Nat} :
    q ∈ clientQueues events ↔ ∃ e ∈ events, q ∈ clientQueues [e] := by
  constructor
  · intro h
    obtain ⟨e, he, hq⟩ := List.mem_flatMap.mp h
    exact ⟨e, he, List.mem_flatMap.mpr ⟨e, List.mem_singleton_self e, hq⟩⟩
  · rintro ⟨e, he, hq⟩
    obtain ⟨e', he', hq⟩ := List.mem_flatMap.mp hq
    rw [List.mem_singleton.mp he'] at hq
    exact List.mem_flatMap.mpr ⟨e, he, hq⟩

/-- A burst uses the one queue it is sent on. -/
theorem SentBurst.queues (b : SentBurst) (cntx : Context) {q : Nat}
    (h : q ∈ clientQueues (b.events cntx)) : q = b.qid := by
  obtain ⟨e, he, hq⟩ := mem_clientQueues.mp h
  unfold SentBurst.events at he
  rcases List.mem_append.mp he with he | he
  · rcases List.mem_append.mp he with he | he
    · rcases List.mem_cons.mp he with rfl | he
      · cases hq
      · rw [List.mem_singleton.mp he] at hq
        exact List.mem_singleton.mp hq
    · obtain ⟨buf, -, rfl⟩ := List.mem_map.mp he
      cases hq
  · split at he
    · rw [List.mem_singleton.mp he] at hq
      cases hq
    · cases he

/-- The answers to ARP requests are the only calls outside the scan. -/
theorem receiveBurst_queues {env : ClientEnv} {inp : ReceiveInput} {q : Nat} :
    ∀ {bufs : List Mbuf} {j : Nat} {st : ReceiverState},
      q ∈ clientQueues (receiveBurst env inp j bufs st).2 →
      q = 0 ∧ env.build.rxJustDrop ≠ true
  | [], _, _, h => by cases h
  | buf :: bufs, j, st, h => by
    obtain ⟨silent, hsilent, hdrop, he⟩ := receiverPacket_frees env.log env.hz env.build env.cntx
      (inp.now j) st buf (inp.arpAlloc j)
    simp only [receiveBurst, he, clientQueues_append] at h
    rcases List.mem_append.mp h with h | h
    · rcases List.mem_append.mp h with h | h
      · obtain ⟨e, hmem, hq⟩ := mem_clientQueues.mp h
        refine ⟨?_, fun hd => ?_⟩
        · rcases hsilent e hmem with ⟨args, sent, rfl⟩ | ⟨k, timestamp, rfl⟩
          · cases sent with
            | true => exact List.mem_singleton.mp hq
            | false => cases hq
          · cases hq
        · rw [hdrop hd] at hmem
          cases hmem
      · cases h
    · exact receiveBurst_queues h

theorem scanRx_queues {waiting : Nat → List Mbuf} {q : Nat} :
    ∀ {qs : List Nat}, q ∈ clientQueues (scanRx waiting qs).1 → q ∈ qs
  | [], h => by cases h
  | q' :: qs, h => by
    rw [scanRx] at h
    split at h
    · rcases List.mem_append.mp h with h | h
      · rw [List.mem_singleton.mp h]
        exact List.mem_cons_self
      · exact List.mem_cons_of_mem _ (scanRx_queues h)
    · rcases List.mem_append.mp h with h | h
      · rw [List.mem_singleton.mp h]
        exact List.mem_cons_self
      · cases h

/-- The receiver polls its own range, and answers ARP requests on queue 0. -/
theorem receiverTurn_queues {env : ClientEnv} {st : ReceiverState} {inp : ReceiveInput} {q : Nat}
    (h : q ∈ clientQueues (receiverTurn env st inp).2) :
    Owns env.cntx q ∨ (q = 0 ∧ env.build.rxJustDrop ≠ true) := by
  simp only [receiverTurn, clientQueues_append] at h
  rcases List.mem_append.mp h with h | h
  · obtain ⟨i, hi, rfl⟩ := List.mem_range'.mp (scanRx_queues h)
    exact Or.inl ⟨by omega, by omega⟩
  · exact Or.inr (receiveBurst_queues h)

/-! ## Runs -/

section
variable {env : ClientEnv}

/-- The worker owns queue 0, or it has no use for it. -/
def SafeFromArp (build : ClientBuild) (w : Context) : Prop := w.defaultQid = 0 ∨ AvoidsArp build w

/-- A step keeps the invariant and uses own queues only. -/
theorem clientStep_owned (hw : WellPlaced env.cntx) (hdst : 1 ≤ env.cntx.dstIps.length)
    (hpos : flowSlots env.cntx ≠ 0) (hlt : (flowSlots env.cntx).toNat < 2 ^ 16)
    (hsafe : SafeFromArp env.build env.cntx) (st : ClientState) (inp : ClientInput)
    (h : InPlace env.cntx st.transmit) :
    InPlace env.cntx (clientStep env st inp).1.transmit ∧
      ∀ q ∈ clientQueues (clientStep env st inp).2, Owns env.cntx q := by
  cases inp with
  | transmit inp =>
    have hsteer : ∀ {st'}, Steered env.cntx st.transmit st' → InPlace env.cntx st' := by
      rintro st' (hsame | ⟨hzero, hsame⟩)
      · exact h.of_same hsame
      · exact (h.selectNext hw hdst hpos hlt hzero).of_same hsame
    rcases transmitStep_cases env st.transmit inp with
      ⟨st', he, -, hst⟩ | ⟨st', bufs, he, -, -, hst⟩ | ⟨st', b, he, hzero, hqid, -, -, hst⟩
    · simp only [clientStep, he]
      exact ⟨hsteer hst, fun q hq => absurd hq List.not_mem_nil⟩
    · simp only [clientStep, he]
      exact ⟨hsteer hst, fun q hq => absurd hq List.not_mem_nil⟩
    · simp only [clientStep, he]
      refine ⟨hsteer hst, fun q hq => ?_⟩
      obtain ⟨j, hj, hflow⟩ := h.slot hzero
      rw [b.queues env.cntx hq, hqid, hflow, h.filled j hj]
      exact slotQueue_owned hw j
  | receive inp =>
    rw [clientStep]
    split
    · next hrun =>
      refine ⟨h, fun q hq => ?_⟩
      rcases receiverTurn_queues hq with hown | ⟨rfl, hdrop⟩
      · exact hown
      · rcases hsafe with hzero | ⟨-, hbidi | hdrop'⟩
        · have hcount := hw.countQueues_pos
          rw [Owns, hzero]
          omega
        · rw [hbidi] at hrun
          cases hrun.1
        · exact absurd hdrop' hdrop
    · exact ⟨h, fun q hq => absurd hq List.not_mem_nil⟩

/-- Both threads of a worker, over a whole run. -/
theorem loopQueues_owned (hw : WellPlaced env.cntx) (hdst : 1 ≤ env.cntx.dstIps.length)
    (hpos : flowSlots env.cntx ≠ 0) (hlt : (flowSlots env.cntx).toNat < 2 ^ 16)
    (hsafe : SafeFromArp env.build env.cntx) {tables : FlowTables}
    (hfilled : ∀ j, j < (flowSlots env.cntx).toNat → tables.flowQ j = slotQueue env.cntx j)
    (inp : WorkerInput) : ∀ q ∈ loopQueues env tables inp, Owns env.cntx q := by
  intro q hq
  obtain ⟨e, he, hq⟩ := mem_clientQueues.mp hq
  have hrun := @trace_forall _ _ _ (clientStep env) (fun _ _ => True)
    (fun st => InPlace env.cntx st.transmit) (fun e => ∀ q ∈ clientQueues [e], Owns env.cntx q)
    (fun st inp h _ => (clientStep_owned hw hdst hpos hlt hsafe st inp h).1)
    (fun st inp h _ e he q hq =>
      (clientStep_owned hw hdst hpos hlt hsafe st inp h).2 q (mem_clientQueues.mpr ⟨e, he, hq⟩))
    inp.steps (clientInit env tables inp.now) (transmitInit_inPlace inp.now hpos hfilled)
    (along_of_forall (fun _ _ => trivial) _ _)
  exact hrun e he q hq

/-- Address resolution stays among the first `count_queues` queues. -/
theorem arpQueues_lt {portEth : EtherAddr} {cntx : Context} (hcount : 0 < cntx.countQueues)
    {q : Nat} : ∀ {rounds : List ArpRound} {st : ArpLoopState},
      q ∈ arpQueues portEth cntx st rounds → q < cntx.countQueues
  | [], _, h => by cases h
  | round :: rounds, st, h => by
    have hscan : ∀ (qs : List Nat) (scan : ArpScan),
        q ∈ scannedQueues cntx.srcIp cntx.myEth round.waiting qs scan → q ∈ qs := by
      intro qs
      induction qs with
      | nil => exact fun _ h => h
      | cons q' qs ih =>
        intro scan h
        rw [scannedQueues] at h
        split at h
        · cases h
        · rcases List.mem_cons.mp h with rfl | h
          · exact List.mem_cons_self
          · exact List.mem_cons_of_mem _ (ih _ h)
    rcases List.mem_append.mp h with h | h
    · split at h
      · rcases List.mem_append.mp h with h | h
        · split at h
          · rw [List.mem_singleton.mp h]
            exact hcount
          · cases h
        · exact List.mem_range.mp (hscan _ _ h)
      · cases h
    · exact arpQueues_lt hcount h

/-- A worker that owns queue 0, or has no use for it, uses its own queues only. -/
theorem workerQueues_owned (hw : WellPlaced env.cntx) (hpos : flowSlots env.cntx ≠ 0)
    (hsafe : SafeFromArp env.build env.cntx) (inp : WorkerInput) :
    ∀ q ∈ workerQueues env inp, Owns env.cntx q := by
  intro q hq
  unfold workerQueues at hq
  split at hq
  · cases hq
  · next hstart =>
    have hdst : 1 ≤ env.cntx.dstIps.length := by omega
    split at hq
    · cases hq
    · next tables hfill =>
      obtain ⟨hlt, hslots⟩ := fillFlows_spec hfill fun j hj => absurd hj (Nat.not_lt_zero j)
      have hfilled : ∀ j, j < (flowSlots env.cntx).toNat →
          tables.flowQ j = slotQueue env.cntx j := fun j hj => (hslots j hj).1
      split at hq
      · next harp =>
        rcases hsafe with hzero | havoid
        · rcases List.mem_append.mp hq with hq | hq
          · have hq := arpQueues_lt hw.countQueues_pos hq
            rw [Owns, hzero]
            omega
          · split at hq
            · -- the addresses found change nothing about the queues
              refine @loopQueues_owned { env with serverEth := fun k => (final (arpLoopStep
                env.cntx.myEth env.cntx) arpLoopInit inp.rounds).serverEth.getD k broadcastMac }
                hw hdst hpos hlt (Or.inl hzero) tables hfilled inp q hq
            · cases hq
        · rw [havoid.1] at harp
          cases harp
      · exact loopQueues_owned hw hdst hpos hlt hsafe hfilled inp q hq

end

/-! ## Queue 0 is used -/

section
variable {env : ClientEnv}

/-- A turn of `get_dst_mac` in which there is a buffer and nothing arrives. -/
def silentRound : ArpRound where
  pool := some (0, fun _ => 0)
  willing := 0
  waiting := fun _ => []

/-- Any worker that resolves addresses sends on queue 0. -/
theorem workerQueues_of_arp (hstart : Starts env.cntx) (harp : env.cntx.doArp = true)
    (stack : FlowTables) : ∃ inp, 0 ∈ workerQueues env inp := by
  obtain ⟨hdst, hburst, hlt⟩ := hstart
  obtain ⟨tables, hfill⟩ := fillFlows_total hlt (flowSlots env.cntx).toNat 0 stack (Nat.sub_le _ _)
  refine ⟨{ fuel := (flowSlots env.cntx).toNat + 1, stack := stack, rounds := [silentRound],
            now := 0, steps := [] }, ?_⟩
  unfold workerQueues
  rw [if_neg (by omega)]
  simp only [hfill, if_pos harp]
  refine List.mem_append_left _ (List.mem_append_left _ ?_)
  rw [if_pos ⟨hdst, Bool.false_ne_true⟩]
  exact List.mem_append_left _ (List.mem_singleton_self 0)

/-- An ARP request for the worker's own address. -/
def requestFor (w : Context) : Mbuf :=
  arpMbuf 0 (fun _ => 0) broadcastMac
    { op := arpOpRequest, srcIp := 0, dstEth := broadcastMac, dstIp := w.srcIp }

theorem checkEthHdr_requestFor (w : Context) :
    checkEthHdr w.srcIp w.myEth (requestFor w) =
      { valid := false
        reply := some
          { op := arpOpReply, srcIp := w.srcIp, dstEth := broadcastMac, dstIp := 0 } } :=
  @checkEthHdr_request (requestFor w) _
    (arpFields_arpFrame (fun _ => 0) arpOpRequest broadcastMac 0 broadcastMac w.srcIp)
    rfl rfl rfl w.myEth

/-- A turn of the receiver that finds a request in the first queue. -/
def requestTurn (w : Context) : ReceiveInput where
  waiting := fun _ => [requestFor w]
  now := fun _ => 0
  arpAlloc := fun _ => true

/-- Any receiver that looks at its packets answers on queue 0. -/
theorem receiverTurn_requestTurn (hcount : 0 < env.cntx.countQueues)
    (hdrop : env.build.rxJustDrop = false) (st : ReceiverState) :
    0 ∈ clientQueues (receiverTurn env st (requestTurn env.cntx)).2 := by
  obtain ⟨n, hn⟩ := Nat.exists_eq_succ_of_ne_zero (Nat.ne_of_gt hcount)
  have hscan : (scanRx (requestTurn env.cntx).waiting
      (List.range' env.cntx.defaultQid env.cntx.countQueues)).2 = [requestFor env.cntx] := by
    rw [hn, List.range'_succ]
    rfl
  simp only [receiverTurn, hscan, clientQueues_append]
  refine List.mem_append_right _ ?_
  simp only [receiveBurst, receiverPacket, hdrop, checkEthHdr_requestFor]
  exact List.mem_singleton_self 0

theorem workerQueues_of_receiver (hstart : Starts env.cntx) (hcount : 0 < env.cntx.countQueues)
    (harp : env.cntx.doArp = false) (hbidi : env.cntx.bidi = true)
    (hdrop : env.build.rxJustDrop = false) (stack : FlowTables) :
    ∃ inp, 0 ∈ workerQueues env inp := by
  obtain ⟨hdst, hburst, hlt⟩ := hstart
  obtain ⟨tables, hfill⟩ := fillFlows_total hlt (flowSlots env.cntx).toNat 0 stack (Nat.sub_le _ _)
  refine ⟨{ fuel := (flowSlots env.cntx).toNat + 1, stack := stack, rounds := [], now := 0,
            steps := [.receive (requestTurn env.cntx)] }, ?_⟩
  unfold workerQueues
  rw [if_neg (by omega)]
  simp only [hfill, harp, Bool.false_eq_true, if_false]
  unfold loopQueues
  rw [trace_cons, trace_nil, List.append_nil, clientStep, if_pos ⟨hbidi, ClientPc.noConfusion⟩]
  exact receiverTurn_requestTurn hcount hdrop _

end

/-- **The queues of one worker.** With at least one slot, a worker that gets to run keeps to its own
range in every run exactly when the range starts at 0 or the worker has nothing to do with ARP. -/
theorem workerQueues_owned_iff {env : ClientEnv} (hw : WellPlaced env.cntx)
    (hpos : flowSlots env.cntx ≠ 0) :
    (∀ inp, ∀ q ∈ workerQueues env inp, Owns env.cntx q) ↔
      ¬ Starts env.cntx ∨ SafeFromArp env.build env.cntx := by
  constructor
  · intro howned
    by_contra hnot
    obtain ⟨hstart, hunsafe⟩ := not_or.mp hnot
    obtain ⟨hzero, havoid⟩ := not_or.mp hunsafe
    have stack : FlowTables := ⟨fun _ => 0, fun _ => 0⟩
    have huse : ∃ inp, 0 ∈ workerQueues env inp := by
      cases harp : env.cntx.doArp with
      | true => exact workerQueues_of_arp (not_not.mp hstart) harp stack
      | false =>
        have hrecv := not_or.mp fun h => havoid ⟨harp, h⟩
        refine workerQueues_of_receiver (not_not.mp hstart) hw.countQueues_pos harp ?_ ?_ stack
        · exact (Bool.not_eq_false _).mp hrecv.1
        · exact (Bool.not_eq_true _).mp hrecv.2
    obtain ⟨inp, hmem⟩ := huse
    exact hzero (Nat.le_zero.mp (howned inp 0 hmem).1)
  · rintro (hstart | hsafe) inp q hq
    · exfalso
      refine hstart ?_
      unfold workerQueues at hq
      split at hq
      · cases hq
      · next hlt =>
        split at hq
        · cases hq
        · next tables hfill =>
          have hfilled := fillFlows_spec hfill fun j hj => absurd hj (Nat.not_lt_zero j)
          exact ⟨by omega, by omega, hfilled.1⟩
    · exact workerQueues_owned hw hpos hsafe inp q hq

/-! ## All workers -/

section
variable {config : AppConfig} {myEth : EtherAddr} {countCore : Nat} {ws : List Context}

/-- The context of a client worker: it is well placed, and its range is the `i`-th share. -/
theorem startWorkers_client_spec (hm : config.mode = .client) (hcore : 1 ≤ countCore)
    (h : startWorkers config myEth countCore = some ws) {i : Nat} {w : Context}
    (hi : ws[i]? = some w) :
    WellPlaced w ∧ i < countCore ∧ w.defaultQid = i * (config.numQueues.toNat / countCore) ∧
      w.countQueues = config.numQueues.toNat / countCore := by
  have hlt : i < countCore := by
    rw [← length_startWorkers h]
    exact (List.getElem?_eq_some_iff.mp hi).1
  have hmode : config.mode ≠ .server := by
    rw [hm]
    exact Mode.noConfusion
  rw [startWorkers_client_get hmode h hlt] at hi
  cases hi
  obtain ⟨hper, -⟩ := startWorkers_shares hcore h
  have hsize := config.numQueues.toNat_lt
  have hend := startWorkers_share_end h hlt
  have hqid : i * (config.numQueues.toNat / countCore) % 2 ^ 16 =
      i * (config.numQueues.toNat / countCore) := Nat.mod_eq_of_lt (by omega)
  refine ⟨⟨hper, ?_, ?_⟩, hlt, hqid, rfl⟩
  · rw [clientContext, hqid]
    exact Nat.lt_of_le_of_lt hend hsize
  · have hport := config.serverPort.toNat_lt
    rw [clientContext, UInt16.toNat_toUInt32]
    exact hport

/-- The worker that owns queue `q` is worker `q / per`. -/
theorem owns_iff_share (hm : config.mode = .client) (hcore : 1 ≤ countCore)
    (h : startWorkers config myEth countCore = some ws) {i : Nat} {w : Context}
    (hi : ws[i]? = some w) (q : Nat) :
    Owns w q ↔ q / (config.numQueues.toNat / countCore) = i := by
  obtain ⟨-, -, hqid, hcount⟩ := startWorkers_client_spec hm hcore h hi
  obtain ⟨hper, -⟩ := startWorkers_shares hcore h
  rw [Owns, hqid, hcount, Nat.div_eq_iff hper]
  constructor
  · rintro ⟨hlo, hhi⟩
    exact ⟨hlo, by omega⟩
  · rintro ⟨hlo, hhi⟩
    exact ⟨hlo, by omega⟩

end

/--
**Queue ownership of client workers.** The ranges that `main` hands out partition the queues, so
workers that keep to their ranges never share a queue. Worker `i`, if it has at least one slot in
its tables, keeps to its range in every run exactly when it ends before it uses a queue, it is the
first worker, or it has nothing to do with ARP.
-/
theorem client_queues_owned_iff (config : AppConfig) (myEth : EtherAddr) (countCore : Nat)
    (ws : List Context) (hm : config.mode = .client) (hcore : 1 ≤ countCore)
    (h : startWorkers config myEth countCore = some ws) :
    (∀ q, q < config.numQueues.toNat → ∃! i : Nat, ∃ w, ws[i]? = some w ∧ Owns w q) ∧
    (∀ (i : Nat) (w : Context) (q : Nat), ws[i]? = some w → Owns w q →
      q < config.numQueues.toNat) ∧
    (∀ (i : Nat) (env : ClientEnv), ws[i]? = some env.cntx → flowSlots env.cntx ≠ 0 →
      ((∀ inp, ∀ q ∈ workerQueues env inp, Owns env.cntx q) ↔
        ¬ Starts env.cntx ∨ i = 0 ∨ AvoidsArp env.build env.cntx)) := by
  obtain ⟨hper, hall⟩ := startWorkers_shares hcore h
  refine ⟨?_, ?_, ?_⟩
  · intro q hq
    have hlt : q / (config.numQueues.toNat / countCore) < ws.length := by
      rw [length_startWorkers h, Nat.div_lt_iff_lt_mul hper, hall]
      exact hq
    refine ⟨q / (config.numQueues.toNat / countCore), ⟨ws[_], List.getElem?_eq_getElem hlt, ?_⟩, ?_⟩
    · exact (owns_iff_share hm hcore h (List.getElem?_eq_getElem hlt) q).mpr rfl
    · rintro j ⟨w, hj, hown⟩
      exact ((owns_iff_share hm hcore h hj q).mp hown).symm
  · intro i w q hi hown
    have hshare := (owns_iff_share hm hcore h hi q).mp hown
    have hlt := (startWorkers_client_spec hm hcore h hi).2.1
    rw [← hshare, Nat.div_lt_iff_lt_mul hper, hall] at hlt
    exact hlt
  · intro i env hi hpos
    obtain ⟨hw, -, hqid, -⟩ := startWorkers_client_spec hm hcore h hi
    have hzero : env.cntx.defaultQid = 0 ↔ i = 0 := by
      rw [hqid, Nat.mul_eq_zero]
      exact or_iff_left (Nat.ne_of_gt hper)
    rw [workerQueues_owned_iff hw hpos, SafeFromArp, hzero]

/-- `--client --ip-local 10.0.0.1 --ip-dest 10.0.0.2 --num-queue 2` -/
def twoQueueLine : List (Opt × CStr) :=
  [(.client, []), (.ipLocal, "10.0.0.1".toList), (.ipDest, "10.0.0.2".toList),
    (.numQueue, "2".toList)]

/-- The default build on a machine with the given context. -/
def sampleClientEnv (config : AppConfig) (w : Context) : ClientEnv where
  hz := 1000
  build := .app
  client := config.client
  cntx := w
  serverEth := fun _ => broadcastMac
  rodata := fun _ => 0
  log := fun x => x

/-- On two cores with two queues the first worker keeps to queue 0. -/
theorem client_queues_owned_first_worker :
    ∃ config ws w, parseArgs (fun _ => 0) twoQueueLine = .ok config ∧
      startWorkers config broadcastMac 2 = some ws ∧ ws[0]? = some w ∧
      ∀ inp, ∀ q ∈ workerQueues (sampleClientEnv config w) inp, Owns w q := by
  obtain ⟨config, hparse, hmode, w, w', hstart, hslots⟩ : ∃ config,
      parseArgs (fun _ => 0) twoQueueLine = .ok config ∧ config.mode = .client ∧
      ∃ w w', startWorkers config broadcastMac 2 = some [w, w'] ∧ flowSlots w ≠ 0 :=
    ⟨_, rfl, rfl, _, _, rfl, by decide⟩
  refine ⟨config, [w, w'], w, hparse, hstart, rfl, ?_⟩
  exact ((client_queues_owned_iff config broadcastMac 2 [w, w'] hmode (by decide) hstart).2.2 0
    (sampleClientEnv config w) rfl hslots).mpr (Or.inr (Or.inl rfl))

/-- The second worker owns queue 1 and sends its ARP request on queue 0, which the first owns. -/
theorem second_worker_uses_queue_0 :
    ∃ config w w', parseArgs (fun _ => 0) twoQueueLine = .ok config ∧ config.mode = .client ∧
      startWorkers config broadcastMac 2 = some [w, w'] ∧ Owns w 0 ∧ ¬ Owns w' 0 ∧
      ∃ inp, 0 ∈ workerQueues (sampleClientEnv config w') inp := by
  obtain ⟨config, hparse, hmode, w, w', hstart, h0, h1, harp, hstarts⟩ : ∃ config,
      parseArgs (fun _ => 0) twoQueueLine = .ok config ∧ config.mode = .client ∧
      ∃ w w', startWorkers config broadcastMac 2 = some [w, w'] ∧ Owns w 0 ∧ ¬ Owns w' 0 ∧
        w'.doArp = true ∧ Starts w' :=
    ⟨_, rfl, rfl, _, _, rfl, by unfold Owns; decide, by unfold Owns; decide, rfl,
      by unfold Starts; decide⟩
  refine ⟨config, w, w', hparse, hmode, hstart, h0, h1, ?_⟩
  exact @workerQueues_of_arp (sampleClientEnv config w') hstarts harp ⟨fun _ => 0, fun _ => 0⟩

end DpdkEcho
