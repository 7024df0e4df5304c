import Mathlib.Data.List.Perm.Basic
import DpdkEcho.Properties.ClientSteps

/-!
# What becomes of `do_client`'s buffers

The ledger is kept by identity. A buffer comes from the pool or from a receive queue; it goes to
the driver or back to the pool. `Settled` says that nothing is outstanding: what was allocated has
been taken by the driver or is among the freed, and the rest of the freed is what was received.

An iteration of either thread settles all it obtained, except that the process may end while the
packets of a burst are written. That burst is then the last thing in the run.
-/

namespace DpdkEcho

open Infra

/-! ## The ledger -/

section
variable (events : List ClientEvent)

/-- The buffers from `rte_pktmbuf_alloc_bulk`. -/
def allocIds : List Nat :=
  events.flatMap fun
    | .alloc bufs => bufs.map Mbuf.id
    | _ => []

/-- The buffers the driver took. -/
def takenIds : List Nat :=
  events.flatMap fun
    | .tx _ _ taken _ => taken.map Mbuf.id
    | _ => []

/-- The buffers from `rte_eth_rx_burst`. -/
def rxIds : List Nat :=
  events.flatMap fun
    | .rx _ bufs => bufs.map Mbuf.id
    | _ => []

/-- The buffers given back with `rte_pktmbuf_free`. -/
def freedIds : List Nat :=
  events.flatMap fun
    | .free buf => [buf.id]
    | _ => []

/-- Every allocated buffer went to the driver or was freed, every received one was freed, each as
often as it was obtained, and no other was freed. -/
def Settled : Prop :=
  ∃ unsent, (allocIds events).Perm (takenIds events ++ unsent) ∧
    (freedIds events).Perm (unsent ++ rxIds events)

/-- The iterations that transmitted for destination `k` past the warm-up. -/
def measuredBursts (k : Nat) : Nat :=
  events.countP fun
    | .tx k' _ _ measured => k' == k && measured
    | _ => false

end

section
variable {e f : List ClientEvent}

@[simp] theorem allocIds_append : allocIds (e ++ f) = allocIds e ++ allocIds f :=
  List.flatMap_append

@[simp] theorem takenIds_append : takenIds (e ++ f) = takenIds e ++ takenIds f :=
  List.flatMap_append

@[simp] theorem rxIds_append : rxIds (e ++ f) = rxIds e ++ rxIds f := List.flatMap_append

@[simp] theorem freedIds_append : freedIds (e ++ f) = freedIds e ++ freedIds f :=
  List.flatMap_append

@[simp] theorem measuredBursts_append (k : Nat) :
    measuredBursts (e ++ f) k = measuredBursts e k + measuredBursts f k := List.countP_append

/-- The middle two of four parts change places. -/
theorem perm_middle {α : Type} {a b c d p q : List α} (hp : p.Perm (a ++ b))
    (hq : q.Perm (c ++ d)) : (p ++ q).Perm ((a ++ c) ++ (b ++ d)) := by
  refine (hp.append hq).trans ?_
  rw [List.append_assoc, List.append_assoc]
  refine List.Perm.append_left a ?_
  rw [← List.append_assoc, ← List.append_assoc]
  exact List.perm_append_comm.append_right d

theorem Settled.append (he : Settled e) (hf : Settled f) : Settled (e ++ f) := by
  obtain ⟨u, hau, hfu⟩ := he
  obtain ⟨v, hav, hfv⟩ := hf
  refine ⟨u ++ v, ?_, ?_⟩
  · rw [allocIds_append, takenIds_append]
    exact perm_middle hau hav
  · rw [freedIds_append, rxIds_append]
    exact perm_middle hfu hfv

end

/-! ## Events without a transmission -/

/-- The events allocate and transmit nothing; they receive `rx` and free `freed`. -/
structure NoTransmit (events : List ClientEvent) (rx freed : List Nat) : Prop where
  alloc : allocIds events = []
  taken : takenIds events = []
  measured : ∀ k, measuredBursts events k = 0
  rx : rxIds events = rx
  freed : freedIds events = freed

namespace NoTransmit

variable {e f : List ClientEvent} {rx rx' freed freed' : List Nat}

theorem nil : NoTransmit [] [] [] := ⟨rfl, rfl, fun _ => rfl, rfl, rfl⟩

theorem free (buf : Mbuf) : NoTransmit [.free buf] [] [buf.id] := ⟨rfl, rfl, fun _ => rfl, rfl, rfl⟩

theorem delay (cycles : UInt64) : NoTransmit [.delay cycles] [] [] :=
  ⟨rfl, rfl, fun _ => rfl, rfl, rfl⟩

theorem rxBurst (qid : Nat) (bufs : List Mbuf) : NoTransmit [.rx qid bufs] (bufs.map Mbuf.id) [] :=
  ⟨rfl, rfl, fun _ => rfl, List.append_nil _, rfl⟩

theorem append (he : NoTransmit e rx freed) (hf : NoTransmit f rx' freed') :
    NoTransmit (e ++ f) (rx ++ rx') (freed ++ freed') where
  alloc := by rw [allocIds_append, he.alloc, hf.alloc, List.append_nil]
  taken := by rw [takenIds_append, he.taken, hf.taken, List.append_nil]
  measured := by
    intro k
    rw [measuredBursts_append, he.measured, hf.measured]
  rx := by rw [rxIds_append, he.rx, hf.rx]
  freed := by rw [freedIds_append, he.freed, hf.freed]

theorem frees : ∀ bufs : List Mbuf, NoTransmit (bufs.map .free) [] (bufs.map Mbuf.id)
  | [] => nil
  | buf :: bufs => (free buf).append (frees bufs)

/-- What is received and freed is settled. -/
theorem settled {ids : List Nat} (h : NoTransmit e ids ids) : Settled e := by
  refine ⟨[], ?_, ?_⟩
  · rw [h.alloc, h.taken]
    exact List.Perm.refl _
  · rw [h.freed, h.rx]
    exact List.Perm.refl _

end NoTransmit

/-! ## The receiver thread -/

theorem Silent.noTransmit : ∀ {events : List ClientEvent}, Silent events → NoTransmit events [] []
  | [], _ => NoTransmit.nil
  | e :: events, h => by
    have hhead : NoTransmit [e] [] [] := by
      rcases h e List.mem_cons_self with ⟨args, sent, rfl⟩ | ⟨k, timestamp, rfl⟩
      · exact ⟨rfl, rfl, fun _ => rfl, rfl, rfl⟩
      · exact ⟨rfl, rfl, fun _ => rfl, rfl, rfl⟩
    have htail : Silent events := fun e' he' => h e' (List.mem_cons_of_mem e he')
    exact hhead.append htail.noTransmit

/-- The loop over a burst frees the packets of the burst, in order. -/
theorem receiveBurst_noTransmit (env : ClientEnv) (inp : ReceiveInput) :
    ∀ (bufs : List Mbuf) (j : Nat) (st : ReceiverState),
      NoTransmit (receiveBurst env inp j bufs st).2 [] (bufs.map Mbuf.id)
  | [], _, _ => NoTransmit.nil
  | buf :: bufs, j, st => by
    obtain ⟨silent, hsilent, -, he⟩ := receiverPacket_frees env.log env.hz env.build env.cntx
      (inp.now j) st buf (inp.arpAlloc j)
    have hrest := receiveBurst_noTransmit env inp bufs (j + 1)
      (receiverPacket env.log env.hz env.build env.cntx (inp.now j) st buf).1
    simp only [receiveBurst, he]
    exact (hsilent.noTransmit.append (NoTransmit.free buf)).append hrest

/-- The scan obtains the burst it returns. -/
theorem scanRx_noTransmit (waiting : Nat → List Mbuf) : ∀ qs : List Nat,
    NoTransmit (scanRx waiting qs).1 ((scanRx waiting qs).2.map Mbuf.id) []
  | [] => NoTransmit.nil
  | q :: qs => by
    rw [scanRx]
    split
    · exact (NoTransmit.rxBurst q []).append (scanRx_noTransmit waiting qs)
    · exact NoTransmit.rxBurst q _

/-- A turn of the receiver frees what it received. -/
theorem receiverTurn_noTransmit (env : ClientEnv) (st : ReceiverState) (inp : ReceiveInput) :
    ∃ ids, NoTransmit (receiverTurn env st inp).2 ids ids := by
  have hscan := scanRx_noTransmit inp.waiting
    (List.range' env.cntx.defaultQid env.cntx.countQueues)
  have hrest := receiveBurst_noTransmit env inp
    (scanRx inp.waiting (List.range' env.cntx.defaultQid env.cntx.countQueues)).2 0 st
  have hturn := hscan.append hrest
  rw [List.append_nil, List.nil_append] at hturn
  exact ⟨_, hturn⟩

/-! ## The transmit loop -/

section
variable (b : SentBurst) (cntx : Context)

/-- Behind the driver call a burst only frees what the driver left. -/
theorem SentBurst.tail_noTransmit :
    NoTransmit ((b.built.drop b.nbTx).map .free ++
      if cntx.delayCycles > 0 then [.delay (delayOfBurst cntx)] else [])
      [] ((b.built.drop b.nbTx).map Mbuf.id) := by
  have hdelay : NoTransmit
      (if cntx.delayCycles > 0 then [.delay (delayOfBurst cntx)] else []) [] [] := by
    split
    · exact NoTransmit.delay _
    · exact NoTransmit.nil
  have htail := (NoTransmit.frees (b.built.drop b.nbTx)).append hdelay
  rwa [List.append_nil, List.append_nil] at htail

/-- A burst that was handed to the driver is settled: what the driver left is freed. -/
theorem SentBurst.settled : Settled (b.events cntx) := by
  have htail := b.tail_noTransmit cntx
  refine ⟨(b.built.drop b.nbTx).map Mbuf.id, ?_, ?_⟩
  · rw [SentBurst.events, List.append_assoc, allocIds_append, takenIds_append, htail.alloc,
      htail.taken]
    simp only [allocIds, takenIds, List.flatMap_cons, List.flatMap_nil, List.append_nil,
      List.nil_append]
    rw [← List.map_append, List.take_append_drop, b.same_bufs]
  · rw [SentBurst.events, List.append_assoc, freedIds_append, rxIds_append, htail.freed, htail.rx]
    simp only [freedIds, rxIds, List.flatMap_cons, List.flatMap_nil, List.append_nil,
      List.nil_append]
    exact List.Perm.refl _

theorem SentBurst.measuredBursts (k : Nat) :
    DpdkEcho.measuredBursts (b.events cntx) k = if b.k = k ∧ b.measured then 1 else 0 := by
  rw [SentBurst.events, List.append_assoc, measuredBursts_append,
    (b.tail_noTransmit cntx).measured, Nat.add_zero, DpdkEcho.measuredBursts]
  by_cases h : b.k = k ∧ b.measured = true
  · rw [if_pos h, List.countP_cons_of_neg Bool.false_ne_true,
      List.countP_cons_of_pos (by simp [h])]
    rfl
  · rw [if_neg h, List.countP_cons_of_neg Bool.false_ne_true,
      List.countP_cons_of_neg (by simpa using h)]
    rfl

end

/-! ## One step -/

section
variable {env : ClientEnv}

/-- A step settles what it obtains, or it ends the process while a burst is written. -/
theorem clientStep_settled (st : ClientState) (inp : ClientInput) :
    Settled (clientStep env st inp).2 ∨
    ∃ bufs, (clientStep env st inp).2 = [.alloc bufs] ∧
      (clientStep env st inp).1.transmit.pc = .aborted := by
  have hnil : Settled [] := NoTransmit.nil.settled
  cases inp with
  | transmit inp =>
    rcases transmitStep_cases env st.transmit inp with
      ⟨st', he, -⟩ | ⟨st', bufs, he, hpc, -⟩ | ⟨st', b, he, -⟩
    · refine Or.inl ?_
      simp only [clientStep, he]
      exact hnil
    · refine Or.inr ⟨bufs, ?_, ?_⟩
      · simp only [clientStep, he]
      · simp only [clientStep, he]
        exact hpc
    · refine Or.inl ?_
      simp only [clientStep, he]
      exact b.settled env.cntx
  | receive inp =>
    refine Or.inl ?_
    rw [clientStep]
    split
    · obtain ⟨ids, hturn⟩ := receiverTurn_noTransmit env st.receiver inp
      exact hturn.settled
    · exact hnil

/-- What a run adds to the two counters of destination `k`. -/
def AddsCounts (k burst : Nat) (st st' : TransmitState) (events : List ClientEvent) : Prop :=
  ∃ sent failed, sent + failed = burst * measuredBursts events k ∧
    st'.totalSentPkts k = st.totalSentPkts k + UInt64.ofNat sent ∧
    st'.failedToPush k = st.failedToPush k + UInt64.ofNat failed

theorem AddsCounts.of_same {k burst : Nat} {st st' : TransmitState} {events : List ClientEvent}
    (h : SameCounts st st') (hm : measuredBursts events k = 0) :
    AddsCounts k burst st st' events := by
  refine ⟨0, 0, by rw [hm]; rfl, ?_, ?_⟩
  · rw [h.1]
    exact (UInt64.add_zero _).symm
  · rw [h.2]
    exact (UInt64.add_zero _).symm

theorem AddsCounts.trans {k burst : Nat} {st st' st'' : TransmitState} {e f : List ClientEvent}
    (h : AddsCounts k burst st st' e) (h' : AddsCounts k burst st' st'' f) :
    AddsCounts k burst st st'' (e ++ f) := by
  obtain ⟨sent, failed, hsum, hsent, hfailed⟩ := h
  obtain ⟨sent', failed', hsum', hsent', hfailed'⟩ := h'
  refine ⟨sent + sent', failed + failed', ?_, ?_, ?_⟩
  · rw [measuredBursts_append, Nat.mul_add, ← hsum, ← hsum']
    omega
  · rw [hsent', hsent, UInt64.add_assoc, UInt64.ofNat_add]
  · rw [hfailed', hfailed, UInt64.add_assoc, UInt64.ofNat_add]

/-- A measured burst adds what the driver took and what it left, for its destination. -/
theorem addsCounts_of_counted {st st' : TransmitState} {b : SentBurst} {burst : Nat} (k : Nat)
    {cntx : Context} (hle : b.nbTx ≤ burst)
    (h : Counted st st' b.k b.nbTx burst b.measured) :
    AddsCounts k burst st st' (b.events cntx) := by
  unfold Counted at h
  split at h
  · next hm =>
    by_cases hk : b.k = k
    · refine ⟨b.nbTx, burst - b.nbTx, ?_, ?_, ?_⟩
      · rw [b.measuredBursts, if_pos ⟨hk, hm⟩]
        omega
      · rw [h.1, hk, Function.update_self]
      · rw [h.2, hk, Function.update_self]
    · refine ⟨0, 0, ?_, ?_, ?_⟩
      · rw [b.measuredBursts, if_neg fun hb => hk hb.1]
        rfl
      · rw [h.1, Function.update_of_ne (Ne.symm hk)]
        exact (UInt64.add_zero _).symm
      · rw [h.2, Function.update_of_ne (Ne.symm hk)]
        exact (UInt64.add_zero _).symm
  · next hm =>
    refine AddsCounts.of_same h ?_
    rw [b.measuredBursts, if_neg fun hb => hm hb.2]

theorem clientStep_addsCounts (k : Nat) (st : ClientState) (inp : ClientInput) :
    AddsCounts k env.cntx.batch.toNat st.transmit (clientStep env st inp).1.transmit
      (clientStep env st inp).2 := by
  cases inp with
  | transmit inp =>
    rcases transmitStep_cases env st.transmit inp with
      ⟨st', he, hsame, -⟩ | ⟨st', bufs, he, -, hsame, -⟩ | ⟨st', b, he, -, -, hle, hcnt, -⟩
    · simp only [clientStep, he]
      exact AddsCounts.of_same hsame rfl
    · simp only [clientStep, he]
      exact AddsCounts.of_same hsame rfl
    · simp only [clientStep, he]
      exact addsCounts_of_counted k hle hcnt
  | receive inp =>
    rw [clientStep]
    split
    · obtain ⟨ids, hturn⟩ := receiverTurn_noTransmit env st.receiver inp
      exact AddsCounts.of_same ⟨rfl, rfl⟩ (hturn.measured k)
    · exact AddsCounts.of_same ⟨rfl, rfl⟩ rfl

/-! ## Runs -/

/-- After the process has ended nothing happens. -/
theorem clientStep_aborted {st : ClientState} (h : st.transmit.pc = .aborted) (inp : ClientInput) :
    clientStep env st inp = (st, []) := by
  cases inp with
  | transmit inp =>
    have hpc : st.transmit.pc ≠ .loop := by
      rw [h]
      exact ClientPc.noConfusion
    simp only [clientStep, transmitStep_ended hpc inp]
  | receive inp => rw [clientStep, if_neg fun hrun => hrun.2 h]

theorem client_aborted {st : ClientState} (h : st.transmit.pc = .aborted) :
    ∀ inputs : List ClientInput,
      trace (clientStep env) st inputs = [] ∧ final (clientStep env) st inputs = st
  | [] => ⟨rfl, rfl⟩
  | inp :: inputs => by
    rw [trace_cons, final_cons, clientStep_aborted h inp]
    exact client_aborted h inputs

/-- A run is settled, or it is settled up to the burst in which the process ended. -/
theorem client_settled : ∀ (inputs : List ClientInput) (st : ClientState),
    Settled (trace (clientStep env) st inputs) ∨
    ∃ pre bufs, trace (clientStep env) st inputs = pre ++ [.alloc bufs] ∧ Settled pre ∧
      (final (clientStep env) st inputs).transmit.pc = .aborted
  | [], _ => Or.inl NoTransmit.nil.settled
  | inp :: inputs, st => by
    rw [trace_cons, final_cons]
    rcases clientStep_settled st inp with hstep | ⟨bufs, he, hpc⟩
    · rcases client_settled inputs (clientStep env st inp).1 with hrest | ⟨pre, bufs, he, hpre, hpc⟩
      · exact Or.inl (hstep.append hrest)
      · refine Or.inr ⟨(clientStep env st inp).2 ++ pre, bufs, ?_, hstep.append hpre, hpc⟩
        rw [he, List.append_assoc]
    · obtain ⟨htrace, hfinal⟩ := client_aborted hpc inputs
      refine Or.inr ⟨[], bufs, ?_, NoTransmit.nil.settled, ?_⟩
      · rw [htrace, he]
        rfl
      · rw [hfinal]
        exact hpc

theorem client_addsCounts (k : Nat) : ∀ (inputs : List ClientInput) (st : ClientState),
    AddsCounts k env.cntx.batch.toNat st.transmit (final (clientStep env) st inputs).transmit
      (trace (clientStep env) st inputs)
  | [], _ => AddsCounts.of_same ⟨rfl, rfl⟩ rfl
  | inp :: inputs, st =>
    (clientStep_addsCounts k st inp).trans (client_addsCounts k inputs _)

end

/--
**Conservation of `do_client`'s buffers.** In every run of the two threads, whatever the pool, the
driver and the network do, nothing is outstanding between two steps: every allocated buffer was
taken by the driver or freed, every received one was freed, each exactly as often as it was
obtained. The only exception is a burst during whose construction the process ended.

The two counters of a destination add up to the burst size times the transmissions for it that
were past the warm-up, in the `uint64_t` arithmetic of the counters and, as long as the product is
below 2^64, as numbers.
-/
theorem client_conserves_buffers (env : ClientEnv) (tables : FlowTables) (now : UInt64)
    (inputs : List ClientInput) :
    let events := trace (clientStep env) (clientInit env tables now) inputs
    let st := (final (clientStep env) (clientInit env tables now) inputs).transmit
    (Settled events ∨
      ∃ pre bufs, events = pre ++ [.alloc bufs] ∧ Settled pre ∧ st.pc = .aborted) ∧
    ∀ k, st.totalSentPkts k + st.failedToPush k =
        UInt64.ofNat (env.cntx.batch.toNat * measuredBursts events k) ∧
      (env.cntx.batch.toNat * measuredBursts events k < 2 ^ 64 →
        (st.totalSentPkts k).toNat + (st.failedToPush k).toNat =
          env.cntx.batch.toNat * measuredBursts events k) := by
  refine ⟨client_settled inputs _, fun k => ?_⟩
  obtain ⟨sent, failed, hsum, hsent, hfailed⟩ :=
    @client_addsCounts env k inputs (clientInit env tables now)
  have hinit : (clientInit env tables now).transmit.totalSentPkts k = 0 ∧
      (clientInit env tables now).transmit.failedToPush k = 0 := ⟨rfl, rfl⟩
  rw [hinit.1, UInt64.zero_add] at hsent
  rw [hinit.2, UInt64.zero_add] at hfailed
  rw [hsent, hfailed, ← hsum]
  refine ⟨(UInt64.ofNat_add sent failed).symm, fun hlt => ?_⟩
  have hsize : UInt64.size = 2 ^ 64 := rfl
  rw [UInt64.toNat_ofNat_of_lt' (by omega), UInt64.toNat_ofNat_of_lt' (by omega)]

end DpdkEcho
