import DpdkEcho.Properties.RateLimit

/-!
# The slot of a burst

`do_client` notes the slot of an iteration in `cur_flow` and only then selects the next port, which
the packets of the same iteration are sent to. So a burst is counted for the flow before it.

* `flowAt_run`: with one destination the current flow is the offset of the current port
* `nextPort_succ`: the ports take turns
* `flow_accounting_iff`: the slot of a burst and the flow it belongs to
-/

namespace DpdkEcho

open Infra

/-! ## The flow of an iteration -/

section
variable {env : ClientEnv} {st : TransmitState}

theorem WindowStep.flowAt {st' : TransmitState} {inp : TransmitInput} {events : List ClientEvent}
    (hone : env.cntx.dstIps.length = 1) (hflow : env.cntx.countFlow.toNat ≤ 65535)
    (h : FlowAt env.cntx st) (hstep : WindowStep env st inp st' events) :
    FlowAt env.cntx st' := by
  cases hstep with
  | idle hsame => exact h.of_same hsame
  | held _ hsame _ => exact (h.enterWindow hone hflow).of_same hsame
  | sent _ _ _ hsame _ _ => exact ((h.enterWindow hone hflow).credit _ _).of_same hsame

/-- **In every run the current flow is the offset of the current port.** -/
theorem flowAt_run (hone : env.cntx.dstIps.length = 1) (hmin : 1 ≤ env.cntx.countFlow.toNat)
    (hmax : env.cntx.countFlow.toNat ≤ 65535) (tables : FlowTables) (now : UInt64)
    (inps : List TransmitInput) :
    FlowAt env.cntx (final (transmitStep env) (transmitInit env tables now) inps) := by
  refine final_invariant (FlowAt env.cntx) (fun st inp h _ => ?_)
    (transmitInit_flowAt tables now hmin) (along_of_forall (G := fun _ _ => True) ?_ inps _)
  · exact (transmitStep_window env st inp).flowAt hone hmax h
  · exact fun _ _ => trivial

end

/-- The ports take turns: after the last one comes the first. -/
theorem nextPort_succ {w : Context} {p : UInt32} (hbase : w.basePortNumber.toNat < 2 ^ 16)
    (hflow : w.countFlow.toNat ≤ 65535) (hp : (p - w.basePortNumber).toNat < w.countFlow.toNat) :
    (nextPort w p - w.basePortNumber).toNat
      = ((p - w.basePortNumber).toNat + 1) % w.countFlow.toNat := by
  have hsplit : p = w.basePortNumber + (p - w.basePortNumber) := by grind
  have hone : (1 : UInt32).toNat = 1 := rfl
  have hval : p.toNat = w.basePortNumber.toNat + (p - w.basePortNumber).toNat := by
    conv_lhs => rw [hsplit, UInt32.toNat_add]
    exact Nat.mod_eq_of_lt (by omega)
  have hlast : (w.basePortNumber + w.countFlow).toNat
      = w.basePortNumber.toNat + w.countFlow.toNat := by
    rw [UInt32.toNat_add]
    exact Nat.mod_eq_of_lt (by omega)
  have hsucc : (p + 1).toNat = p.toNat + 1 := by
    rw [UInt32.toNat_add, hone]
    exact Nat.mod_eq_of_lt (by omega)
  rcases nextPort_offset hflow hp with hfirst | ⟨hnext, hlt⟩
  · by_cases hge : p + 1 ≥ w.basePortNumber + w.countFlow
    · have hle := UInt32.le_iff_toNat_le.mp hge
      have heq : (p - w.basePortNumber).toNat + 1 = w.countFlow.toNat := by omega
      rw [hfirst, UInt32.sub_self, heq, Nat.mod_self]
      rfl
    · rw [nextPort, if_neg hge] at hfirst
      have := congrArg UInt32.toNat hfirst
      omega
  · rw [hnext, Nat.mod_eq_of_lt hlt]

/-- Only where there is one flow, a flow follows itself. -/
theorem succ_mod_eq_self_iff {a n : Nat} (h : a < n) : (a + 1) % n = a ↔ n = 1 := by
  rcases Nat.lt_or_ge (a + 1) n with hlt | hge
  · rw [Nat.mod_eq_of_lt hlt]
    omega
  · have hlast : a + 1 = n := by omega
    rw [hlast, Nat.mod_self]
    omega

/-! ## The packets of an iteration -/

/-- The packets of a burst, sent or not. -/
def packetsOf (events : List ClientEvent) : List Mbuf :=
  events.flatMap fun | .tx _ _ taken _ => taken | .free buf => [buf] | _ => []

theorem packetsOf_burst {burst nbTx qid : Nat} {pool : Nat → Nat × Mem} {built : List Mbuf}
    {measured : Bool} {rest : List ClientEvent} (hrest : ∀ e ∈ rest, ∃ cycles, e = .delay cycles) :
    packetsOf ([.alloc (allocBurst burst pool), .tx 0 qid (built.take nbTx) measured] ++
      ((built.drop nbTx).map .free ++ rest)) = built := by
  have hfrees : packetsOf ((built.drop nbTx).map .free) = built.drop nbTx := by
    rw [packetsOf, List.flatMap_map]
    exact List.flatMap_singleton' _
  have hnone : packetsOf rest = [] := by
    refine List.flatMap_eq_nil_iff.mpr fun e he => ?_
    obtain ⟨cycles, rfl⟩ := hrest e he
    rfl
  calc packetsOf _ = built.take nbTx ++ (packetsOf ((built.drop nbTx).map .free) ++ packetsOf rest)
      := by simp [packetsOf]
    _ = built.take nbTx ++ built.drop nbTx := by rw [hfrees, hnone, List.append_nil]
    _ = built := List.take_append_drop nbTx built

/-- The packet belongs to this flow: slot `k * count_flow + (dst_port - base_port_number)` for the
destination and the port it is addressed to. Ports are numbers of 16 bits. -/
def FlowOf (w : Context) (flow : Int) (pkt : Mbuf) : Prop :=
  ∃ (k : Nat) (view : FrameView), decodeFrame pkt.data pkt.dataLen = some view ∧
    w.dstIps[k]? = some view.ip.dstIp ∧
    flow = k * w.countFlow.toNat + (view.transport.dstPort - w.basePortNumber.toUInt16).toNat

section
variable {env : ClientEnv} {st st' : TransmitState} {inp : TransmitInput}

/-- Every packet of an iteration goes to the port that was selected in it. -/
theorem WindowStep.packets {events : List ClientEvent} (hstep : WindowStep env st inp st' events)
    (hsent : SendsBurst events) :
    (packetsOf events).length = env.cntx.batch.toNat ∧
    ∀ pkt ∈ packetsOf events, PacketTo (env.cntx.dstIps.getD 0 0)
      (nextPort env.cntx st.dstPort).toUInt16 pkt := by
  obtain ⟨pool, built, qid, measured, rest, -, hbuilt, -, hrest, rfl⟩ := hstep.sends hsent
  rw [packetsOf_burst hrest]
  have hto := @buildBurst_to env (env.cntx.dstIps.getD 0 0)
    (nextPort env.cntx st.dstPort).toUInt16 (burstInfo env st) rfl rfl
  exact ⟨buildBurst_length hbuilt, hto (burstPairs_fresh _ _ _) hbuilt⟩

/-- With one destination, the flow of a packet is the offset of its port. -/
theorem flowOf_iff {w : Context} {port : UInt32} {pkt : Mbuf} (hone : w.dstIps.length = 1)
    (hport : (port - w.basePortNumber).toNat < 2 ^ 16)
    (hto : PacketTo (w.dstIps.getD 0 0) port.toUInt16 pkt) (flow : Int) :
    FlowOf w flow pkt ↔ flow = ((port - w.basePortNumber).toNat : Nat) := by
  obtain ⟨view, hview, hip, hdst⟩ := hto
  have hoff : (view.transport.dstPort - w.basePortNumber.toUInt16).toNat
      = (port - w.basePortNumber).toNat := by
    rw [hdst, ← UInt32.toUInt16_sub, UInt32.toNat_toUInt16]
    exact Nat.mod_eq_of_lt hport
  obtain ⟨dst, hdsts⟩ := List.length_eq_one_iff.mp hone
  constructor
  · rintro ⟨k, view', hview', hk, hflow⟩
    rw [hview] at hview'
    obtain rfl := Option.some.inj hview'
    have hzero : k = 0 := by
      have := (List.getElem?_eq_some_iff.mp hk).1
      omega
    rw [hflow, hoff, hzero]
    simp
  · intro hflow
    refine ⟨0, view, hview, ?_, ?_⟩
    · rw [hip, hdsts]
      rfl
    · rw [hflow, hoff]
      simp

end

/--
**The slot of a burst is that of its flow exactly when there is one flow.** In every run with one
destination, for every iteration that builds a burst: `cur_flow` is the slot that was tested and is
credited, and the packets belong to the flow after it.
-/
theorem flow_accounting_iff (env : ClientEnv) (hone : env.cntx.dstIps.length = 1)
    (hmin : 1 ≤ env.cntx.countFlow.toNat) (hmax : env.cntx.countFlow.toNat ≤ 65535)
    (hbase : env.cntx.basePortNumber.toNat < 2 ^ 16) (hbatch : 1 ≤ env.cntx.batch.toNat)
    (tables : FlowTables) (now : UInt64) (inps : List TransmitInput) (inp : TransmitInput) :
    let st := final (transmitStep env) (transmitInit env tables now) inps
    let r := transmitStep env st inp
    SendsBurst r.2 →
      (env.cntx.rateLimit = true →
        (((st.enterWindow env inp.endTime).throughput st.flow).toNat : ℚ)
          ≤ limitWindow env (st.deltaTime inp.endTime)) ∧
      r.1.throughput = Function.update (st.enterWindow env inp.endTime).throughput st.flow
        ((st.enterWindow env inp.endTime).throughput st.flow
          + UInt64.ofNat (sentPackets r.2)) ∧
      (∀ pkt ∈ packetsOf r.2, FlowOf env.cntx ((st.flow + 1) % env.cntx.countFlow.toNat) pkt) ∧
      ((∀ pkt ∈ packetsOf r.2, FlowOf env.cntx st.flow pkt) ↔ env.cntx.countFlow = 1) := by
  intro st r hsent
  have hplace : FlowAt env.cntx st := flowAt_run hone hmin hmax tables now inps
  have hstep := transmitStep_window env st inp
  obtain ⟨hopen, hcredit, hcount⟩ := hstep.credits hsent
  obtain ⟨hlen, hto⟩ := hstep.packets hsent
  have hnext := nextPort_succ hbase hmax hplace.offset
  have hlt := nextPort_lt hmax hplace.offset
  have hflow : ∀ pkt ∈ packetsOf r.2, ∀ flow, FlowOf env.cntx flow pkt ↔
      flow = (((st.dstPort - env.cntx.basePortNumber).toNat + 1)
        % env.cntx.countFlow.toNat : Nat) := by
    intro pkt hpkt flow
    rw [flowOf_iff hone (by omega) (hto pkt hpkt), hnext]
  refine ⟨hopen, ?_, fun pkt hpkt => ?_, ?_⟩
  · rw [hcount, hcredit.throughput]
    rfl
  · rw [hflow pkt hpkt, hplace.flow]
    rfl
  · have hself : st.flow = (((st.dstPort - env.cntx.basePortNumber).toNat + 1)
        % env.cntx.countFlow.toNat : Nat) ↔ env.cntx.countFlow.toNat = 1 := by
      rw [hplace.flow, Nat.cast_inj, eq_comm, succ_mod_eq_self_iff hplace.offset]
    have hone' : env.cntx.countFlow = 1 ↔ env.cntx.countFlow.toNat = 1 := UInt32.toNat_inj.symm
    rw [hone', ← hself]
    constructor
    · -- a burst has a packet
      intro h
      obtain ⟨pkt, hpkt⟩ := List.exists_mem_of_length_pos (Nat.lt_of_lt_of_le hbatch hlen.ge)
      exact (hflow pkt hpkt st.flow).mp (h pkt hpkt)
    · intro h pkt hpkt
      exact (hflow pkt hpkt st.flow).mpr h

/-- One flow: slot 0 is credited with packets of flow 0. -/
theorem flow_accounting_single :
    SendsBurst (firstIteration (delayClientEnv 0 4 1)).2 ∧
    ∀ pkt ∈ packetsOf (firstIteration (delayClientEnv 0 4 1)).2,
      FlowOf (delayClientEnv 0 4 1).cntx 0 pkt := by
  have hsent := delayClient_sends 0 4 1
  refine ⟨hsent, ?_⟩
  exact (flow_accounting_iff (delayClientEnv 0 4 1) rfl (by decide) (by decide) (by decide)
    (by decide) ⟨fun _ => 0, fun _ => 0⟩ 0 [] (readyInput 0) hsent).2.2.2.mpr rfl

/-- Two flows: the first burst goes to the second port, and slot 0 is credited. -/
theorem flow_accounting_off_by_one :
    SendsBurst (firstIteration (delayClientEnv 0 4 2)).2 ∧
    (firstIteration (delayClientEnv 0 4 2)).1.throughput 0 = 1 ∧
    ∃ pkt ∈ packetsOf (firstIteration (delayClientEnv 0 4 2)).2,
      PacketTo 0x0A000002 8081 pkt ∧ FlowOf (delayClientEnv 0 4 2).cntx 1 pkt ∧
      ¬ FlowOf (delayClientEnv 0 4 2).cntx 0 pkt := by
  have hsent := delayClient_sends 0 4 2
  have hstep := transmitStep_window (delayClientEnv 0 4 2)
    (transmitInit (delayClientEnv 0 4 2) ⟨fun _ => 0, fun _ => 0⟩ 0) (readyInput 0)
  obtain ⟨-, hcredit, -⟩ := hstep.credits hsent
  obtain ⟨hlen, hto⟩ := hstep.packets hsent
  obtain ⟨pkt, hpkt⟩ := List.exists_mem_of_length_pos (Nat.lt_of_lt_of_eq (by decide) hlen.symm)
  have hport := hto pkt hpkt
  have hiff := flowOf_iff rfl (by decide) hport
  refine ⟨hsent, ?_, pkt, hpkt, hport, (hiff 1).mpr rfl, fun h => ?_⟩
  · have htp := congrFun hcredit.throughput 0
    exact htp
  · exact absurd ((hiff 0).mp h) (by decide)

end DpdkEcho
