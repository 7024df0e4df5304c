import DpdkEcho.Properties.ClientDelay
import DpdkEcho.Properties.FlowTables

/-!
# The rate limit of `do_client`

Each slot has a counter of the packets sent in the current window. An iteration may send as long
as the counter of its slot is not above the share of the rate that belongs to the time since the
window was started; after a second all counters start over.

* `WindowStep`: what an iteration does with the counters, and `transmitStep_window`
* `WindowOk`, `windowStep_ok`: the bounds, kept by every iteration
* `rate_limit_bounds`: the bounds in every run
-/

namespace DpdkEcho

open Infra

/-! ## An iteration and the counters -/

/-- The counters and what selects a flow are the same. -/
structure SameWindow (st st' : TransmitState) : Prop where
  throughput : st'.throughput = st.throughput
  tpStartTs : st'.tpStartTs = st.tpStartTs
  flow : st'.flow = st.flow
  dstPort : st'.dstPort = st.dstPort
  selectedDst : st'.selectedDst = st.selectedDst

/-- The state in which an iteration decides whether to send: the next flow is selected, and after a
second the counters are cleared. -/
def TransmitState.enterWindow (env : ClientEnv) (st : TransmitState) (ts : UInt64) :
    TransmitState :=
  (st.selectNext env.cntx).resetWindow env ts

/-- `pkt_info` of an iteration that goes on from state `st`. -/
def burstInfo (env : ClientEnv) (st : TransmitState) : PreparePacketInfo :=
  pktInfo env.client env.cntx (env.serverEth 0) (env.cntx.dstIps.getD 0 0)
    (nextPort env.cntx st.dstPort).toUInt16 (getTci 3 0 100)

/-- An iteration does not get as far as the rate limit, it is held back there or finds no buffers
or crashes while it writes the packets, or it hands a burst to the driver. -/
inductive WindowStep (env : ClientEnv) (st : TransmitState) (inp : TransmitInput) :
    TransmitState → List ClientEvent → Prop where
  | idle {st' : TransmitState} : SameWindow st st' → WindowStep env st inp st' []
  | held {st' : TransmitState} {events : List ClientEvent} : st.selectedDst = 0 →
      SameWindow (st.enterWindow env inp.endTime) st' →
      (events = [] ∨ ∃ bufs, events = [.alloc bufs]) → WindowStep env st inp st' events
  | sent {st' : TransmitState} {pool : Nat → Nat × Mem} {built : List Mbuf} {qid : Nat}
      {measured : Bool} {events rest : List ClientEvent} : st.selectedDst = 0 →
      (env.cntx.rateLimit = true → (((st.enterWindow env inp.endTime).throughput st.flow).toNat : ℚ)
        ≤ limitWindow env (st.deltaTime inp.endTime)) →
      buildBurst env (env.cntx.dstIps.getD 0 0) (nextPort env.cntx st.dstPort).toUInt16
        (burstInfo env st) (burstPairs env.cntx.batch.toNat pool inp.draws) = some built →
      SameWindow ((st.enterWindow env inp.endTime).credit st.flow
        (txBurst inp.willing env.cntx.batch.toNat)) st' →
      (∀ e ∈ rest, ∃ cycles, e = .delay cycles) →
      events = [.alloc (allocBurst env.cntx.batch.toNat pool),
        .tx 0 qid (built.take (txBurst inp.willing env.cntx.batch.toNat)) measured] ++
          ((built.drop (txBurst inp.willing env.cntx.batch.toNat)).map .free ++ rest) →
      WindowStep env st inp st' events

section
variable {env : ClientEnv} {st st1 st' : TransmitState} {inp : TransmitInput}

theorem SameWindow.trans (h : SameWindow st st1) (h' : SameWindow st1 st') : SameWindow st st' where
  throughput := h'.throughput.trans h.throughput
  tpStartTs := h'.tpStartTs.trans h.tpStartTs
  flow := h'.flow.trans h.flow
  dstPort := h'.dstPort.trans h.dstPort
  selectedDst := h'.selectedDst.trans h.selectedDst

/-- All slots are cleared. -/
def clearSlots (cntx : Context) (throughput : Int → UInt64) : Int → UInt64 := fun f =>
  if 0 ≤ f ∧ f < (flowSlots cntx).toNat then 0 else throughput f

theorem enterWindow_throughput (ts : UInt64) : (st.enterWindow env ts).throughput =
    if st.deltaTime ts > env.hz.toNat then clearSlots env.cntx st.throughput
    else st.throughput := by
  have hdelta : (st.selectNext env.cntx).deltaTime ts = st.deltaTime ts := rfl
  rw [TransmitState.enterWindow, TransmitState.resetWindow, hdelta]
  split <;> rfl

theorem enterWindow_tpStartTs (ts : UInt64) : (st.enterWindow env ts).tpStartTs =
    if st.deltaTime ts > env.hz.toNat then ts else st.tpStartTs := by
  have hdelta : (st.selectNext env.cntx).deltaTime ts = st.deltaTime ts := rfl
  rw [TransmitState.enterWindow, TransmitState.resetWindow, hdelta]
  split <;> rfl

theorem enterWindow_place (ts : UInt64) : SamePlace (st.selectNext env.cntx)
    (st.enterWindow env ts) := (resetWindow_same env (st.selectNext env.cntx) ts).2

theorem SameWindow.enterWindow (h : SameWindow st st1) (env : ClientEnv) (ts : UInt64) :
    SameWindow (st.enterWindow env ts) (st1.enterWindow env ts) := by
  have hp : SamePlace (st.selectNext env.cntx) (st.enterWindow env ts) := enterWindow_place ts
  have hp1 : SamePlace (st1.selectNext env.cntx) (st1.enterWindow env ts) := enterWindow_place ts
  have hdelta : st1.deltaTime ts = st.deltaTime ts := by
    rw [TransmitState.deltaTime, h.tpStartTs, TransmitState.deltaTime]
  refine ⟨?_, ?_, ?_, ?_, ?_⟩
  · rw [enterWindow_throughput, enterWindow_throughput, hdelta, h.throughput]
  · rw [enterWindow_tpStartTs, enterWindow_tpStartTs, hdelta, h.tpStartTs]
  · rw [hp1.flow, hp.flow]
    simp only [TransmitState.selectNext, h.dstPort, h.selectedDst]
  · rw [hp1.dstPort, hp.dstPort]
    simp only [TransmitState.selectNext, h.dstPort]
  · rw [hp1.selectedDst, hp.selectedDst]
    simp only [TransmitState.selectNext, h.selectedDst]

theorem SameWindow.credit (h : SameWindow st st1) (curFlow : Int) (nbTx : Nat) :
    SameWindow (st.credit curFlow nbTx) (st1.credit curFlow nbTx) :=
  ⟨by simp only [TransmitState.credit, h.throughput], h.tpStartTs, h.flow, h.dstPort,
    h.selectedDst⟩

theorem credit_tpStartTs (curFlow : Int) (nbTx : Nat) :
    (st.credit curFlow nbTx).tpStartTs = st.tpStartTs := rfl

theorem credit_throughput (curFlow f : Nat) (nbTx : Nat) :
    (st.credit curFlow nbTx).throughput f
      = if f = curFlow then st.throughput curFlow + UInt64.ofNat nbTx else st.throughput f := by
  simp only [TransmitState.credit, Function.update_apply, Nat.cast_inj]

theorem checkDuration_sameWindow (hz : UInt64) : SameWindow st (st.checkDuration hz inp) := by
  unfold TransmitState.checkDuration
  split
  · split <;> exact ⟨rfl, rfl, rfl, rfl, rfl⟩
  · exact ⟨rfl, rfl, rfl, rfl, rfl⟩

/-- What an iteration does with the counters is a matter of these variables. -/
theorem WindowStep.of_same {events : List ClientEvent} (hs : SameWindow st st1)
    (h : WindowStep env st1 inp st' events) : WindowStep env st inp st' events := by
  have henter := hs.enterWindow env inp.endTime
  cases h with
  | idle hw => exact .idle (hs.trans hw)
  | held hzero hw he => exact .held (hs.selectedDst.symm.trans hzero) (henter.trans hw) he
  | sent hzero hlimit hbuilt hw hrest he =>
    rw [hs.flow, henter.throughput, TransmitState.deltaTime, hs.tpStartTs] at hlimit
    rw [burstInfo, hs.dstPort] at hbuilt
    rw [hs.flow] at hw
    exact .sent (hs.selectedDst.symm.trans hzero) hlimit hbuilt ((henter.credit _ _).trans hw)
      hrest he

/-- From the allocation on. -/
theorem transmitBurst_window {selectedQ : UInt16} (hzero : st.selectedDst = 0)
    (hlimit : env.cntx.rateLimit = true →
      (((st.enterWindow env inp.endTime).throughput st.flow).toNat : ℚ)
        ≤ limitWindow env (st.deltaTime inp.endTime)) :
    WindowStep env st inp
      (transmitBurst env (st.enterWindow env inp.endTime) inp 0 st.flow selectedQ).1
      (transmitBurst env (st.enterWindow env inp.endTime) inp 0 st.flow selectedQ).2 := by
  have hport : (st.enterWindow env inp.endTime).dstPort = nextPort env.cntx st.dstPort :=
    (enterWindow_place inp.endTime).dstPort
  unfold transmitBurst
  simp only [hport]
  cases inp.pool with
  | none => exact .held hzero ⟨rfl, rfl, rfl, rfl, rfl⟩ (Or.inl rfl)
  | some pool =>
    simp only []
    split
    · exact .held hzero ⟨rfl, rfl, rfl, hport.symm, rfl⟩ (Or.inr ⟨_, rfl⟩)
    · next built hbuilt =>
      rw [List.append_assoc]
      refine .sent hzero hlimit hbuilt ?_ ?_ rfl
      · split <;> exact ⟨rfl, rfl, rfl, rfl, rfl⟩
      · intro e he
        split at he
        · exact ⟨_, List.mem_singleton.mp he⟩
        · cases he

/-- **Every iteration is one of these.** -/
theorem transmitStep_window (env : ClientEnv) (st : TransmitState) (inp : TransmitInput) :
    WindowStep env st inp (transmitStep env st inp).1 (transmitStep env st inp).2 := by
  have hsame := @checkDuration_sameWindow st inp env.hz
  unfold transmitStep
  split
  · exact .idle ⟨rfl, rfl, rfl, rfl, rfl⟩
  · simp only []
    split
    · refine WindowStep.of_same hsame ?_
      generalize st.checkDuration env.hz inp = st1
      unfold trySend
      simp only []
      split
      · exact .idle ⟨rfl, rfl, rfl, rfl, rfl⟩
      · next hdst =>
        have hzero : st1.selectedDst = 0 := not_not.mp hdst
        have hdelta : (st1.selectNext env.cntx).deltaTime inp.endTime
            = st1.deltaTime inp.endTime := rfl
        split
        · exact .held hzero ⟨rfl, rfl, rfl, rfl, rfl⟩ (Or.inl rfl)
        · next hopen =>
          rw [hzero]
          refine transmitBurst_window hzero fun hrate => ?_
          rw [hdelta, not_and] at hopen
          exact not_lt.mp (hopen hrate)
    · exact .idle hsame

end

/-! ## The flows of one destination -/

/-- With one destination the current flow is the offset of the current port. -/
structure FlowAt (w : Context) (st : TransmitState) : Prop where
  selectedDst : st.selectedDst = 0
  flow : st.flow = ((st.dstPort - w.basePortNumber).toNat : Nat)
  offset : (st.dstPort - w.basePortNumber).toNat < w.countFlow.toNat

section
variable {w : Context} {st st' : TransmitState}

theorem FlowAt.of_same (h : FlowAt w st) (hs : SameWindow st st') : FlowAt w st' where
  selectedDst := by rw [hs.selectedDst, h.selectedDst]
  flow := by rw [hs.flow, hs.dstPort, h.flow]
  offset := by rw [hs.dstPort]; exact h.offset

theorem FlowAt.credit (h : FlowAt w st) (curFlow : Int) (nbTx : Nat) :
    FlowAt w (st.credit curFlow nbTx) := ⟨h.selectedDst, h.flow, h.offset⟩

/-- The next port is the first one, or one further without leaving the range. -/
theorem nextPort_offset {p : UInt32} (hflow : w.countFlow.toNat ≤ 65535)
    (hp : (p - w.basePortNumber).toNat < w.countFlow.toNat) :
    nextPort w p = w.basePortNumber ∨
      ((nextPort w p - w.basePortNumber).toNat = (p - w.basePortNumber).toNat + 1 ∧
        (p - w.basePortNumber).toNat + 1 < w.countFlow.toNat) := by
  unfold nextPort
  split
  · exact Or.inl rfl
  · next hlt =>
    right
    have hshift : p + 1 - w.basePortNumber = (p - w.basePortNumber) + 1 := by grind
    have hone : (1 : UInt32).toNat = 1 := rfl
    have hval : (p + 1 - w.basePortNumber).toNat = (p - w.basePortNumber).toNat + 1 := by
      rw [hshift, UInt32.toNat_add, hone]
      exact Nat.mod_eq_of_lt (by omega)
    refine ⟨hval, ?_⟩
    -- one further than the last port is where the ports start over
    have hne : (p + 1 - w.basePortNumber).toNat ≠ w.countFlow.toNat := by
      intro heq
      have hflow : p + 1 - w.basePortNumber = w.countFlow := UInt32.toNat_inj.mp heq
      have hport : p + 1 = w.basePortNumber + w.countFlow := by
        rw [← hflow]
        grind
      exact hlt (by rw [hport]; exact UInt32.le_refl _)
    omega

theorem nextPort_lt {p : UInt32} (hflow : w.countFlow.toNat ≤ 65535)
    (hp : (p - w.basePortNumber).toNat < w.countFlow.toNat) :
    (nextPort w p - w.basePortNumber).toNat < w.countFlow.toNat := by
  rcases nextPort_offset hflow hp with hbase | ⟨hval, hlt⟩
  · rw [hbase, UInt32.sub_self]
    exact Nat.lt_of_le_of_lt (Nat.zero_le _) hp
  · omega

theorem FlowAt.selectNext (hone : w.dstIps.length = 1) (hflow : w.countFlow.toNat ≤ 65535)
    (h : FlowAt w st) : FlowAt w (st.selectNext w) := by
  have hlt := nextPort_lt hflow h.offset
  have hsel : (st.selectedDst + 1) % w.dstIps.length = 0 := by
    rw [hone, Nat.mod_one]
  refine ⟨hsel, ?_, hlt⟩
  simp only [TransmitState.selectNext, hsel]
  rw [show UInt32.ofNat 0 * w.countFlow = 0 from UInt32.zero_mul, UInt32.zero_add]
  exact Int.bmod_eq_of_le (by omega) (by omega)

theorem FlowAt.enterWindow {env : ClientEnv} {ts : UInt64} (hone : env.cntx.dstIps.length = 1)
    (hflow : env.cntx.countFlow.toNat ≤ 65535) (h : FlowAt env.cntx st) :
    FlowAt env.cntx (st.enterWindow env ts) := by
  have hp : SamePlace (st.selectNext env.cntx) (st.enterWindow env ts) := enterWindow_place ts
  have hnext := h.selectNext hone hflow
  refine ⟨hp.selectedDst.trans hnext.selectedDst, ?_, ?_⟩
  · rw [hp.flow, hp.dstPort]
    exact hnext.flow
  · rw [hp.dstPort]
    exact hnext.offset

theorem transmitInit_flowAt {env : ClientEnv} (tables : FlowTables) (now : UInt64)
    (hflow : 1 ≤ env.cntx.countFlow.toNat) :
    FlowAt env.cntx (transmitInit env tables now) := by
  have hzero : (transmitInit env tables now).dstPort - env.cntx.basePortNumber = 0 :=
    UInt32.sub_self _
  refine ⟨rfl, ?_, ?_⟩
  · rw [hzero]
    rfl
  · rw [hzero]
    exact hflow

end

/-! ## The counters -/

/-- The packets handed over in an iteration. -/
def sentPackets (events : List ClientEvent) : Nat :=
  (events.map fun | .tx _ _ taken _ => taken.length | _ => 0).sum

theorem sentPackets_burst {env : ClientEnv} {dstIp : UInt32} {dstPort : UInt16}
    {info : PreparePacketInfo} {burst willing qid : Nat} {pool : Nat → Nat × Mem}
    {draws : Nat → Draws} {built bufs : List Mbuf} {measured : Bool} {rest : List ClientEvent}
    (hbuilt : buildBurst env dstIp dstPort info (burstPairs burst pool draws) = some built)
    (hrest : ∀ e ∈ rest, ∃ cycles, e = .delay cycles) :
    sentPackets ([.alloc bufs, .tx 0 qid (built.take (txBurst willing burst)) measured] ++
      ((built.drop (txBurst willing burst)).map .free ++ rest)) = txBurst willing burst := by
  have hnone : sentPackets ((built.drop (txBurst willing burst)).map .free ++ rest) = 0 := by
    refine List.sum_eq_zero fun n hn => ?_
    obtain ⟨e, he, rfl⟩ := List.mem_map.mp hn
    rcases List.mem_append.mp he with he | he
    · obtain ⟨buf, -, rfl⟩ := List.mem_map.mp he
      rfl
    · obtain ⟨cycles, rfl⟩ := hrest e he
      rfl
  have hlen : (built.take (txBurst willing burst)).length = txBurst willing burst := by
    rw [List.length_take, buildBurst_length hbuilt]
    exact Nat.min_eq_left (txBurst_le _ _)
  rw [sentPackets, List.map_append, List.sum_append]
  simp only [List.map_cons, List.map_nil, List.sum_cons, List.sum_nil, hlen, Nat.add_zero,
    Nat.zero_add]
  rw [← sentPackets, hnone, Nat.add_zero]

/-- An iteration that sends a burst is of the third kind. -/
theorem WindowStep.sends {env : ClientEnv} {st st' : TransmitState} {inp : TransmitInput}
    {events : List ClientEvent} (hstep : WindowStep env st inp st' events)
    (hsent : SendsBurst events) :
    ∃ pool built qid measured rest,
      (env.cntx.rateLimit = true → (((st.enterWindow env inp.endTime).throughput st.flow).toNat : ℚ)
        ≤ limitWindow env (st.deltaTime inp.endTime)) ∧
      buildBurst env (env.cntx.dstIps.getD 0 0) (nextPort env.cntx st.dstPort).toUInt16
        (burstInfo env st) (burstPairs env.cntx.batch.toNat pool inp.draws) = some built ∧
      SameWindow ((st.enterWindow env inp.endTime).credit st.flow
        (txBurst inp.willing env.cntx.batch.toNat)) st' ∧
      (∀ e ∈ rest, ∃ cycles, e = .delay cycles) ∧
      events = [.alloc (allocBurst env.cntx.batch.toNat pool),
        .tx 0 qid (built.take (txBurst inp.willing env.cntx.batch.toNat)) measured] ++
          ((built.drop (txBurst inp.willing env.cntx.batch.toNat)).map .free ++ rest) := by
  obtain ⟨k, qid, taken, measured, hmem⟩ := hsent
  cases hstep with
  | idle _ => cases hmem
  | held _ _ hev =>
    rcases hev with rfl | ⟨bufs, rfl⟩
    · cases hmem
    · cases List.mem_singleton.mp hmem
  | sent _ hopen hbuilt hsame hrest hev =>
    exact ⟨_, _, _, _, _, hopen, hbuilt, hsame, hrest, hev⟩

/-- It has tested the slot it was entered with, and credits it. -/
theorem WindowStep.credits {env : ClientEnv} {st st' : TransmitState} {inp : TransmitInput}
    {events : List ClientEvent} (hstep : WindowStep env st inp st' events)
    (hsent : SendsBurst events) :
    (env.cntx.rateLimit = true → (((st.enterWindow env inp.endTime).throughput st.flow).toNat : ℚ)
      ≤ limitWindow env (st.deltaTime inp.endTime)) ∧
    SameWindow ((st.enterWindow env inp.endTime).credit st.flow
      (txBurst inp.willing env.cntx.batch.toNat)) st' ∧
    sentPackets events = txBurst inp.willing env.cntx.batch.toNat := by
  obtain ⟨pool, built, qid, measured, rest, hopen, hbuilt, hsame, hrest, rfl⟩ := hstep.sends hsent
  exact ⟨hopen, hsame, sentPackets_burst hbuilt hrest⟩

/-- The packets sent for each slot, started over with the window: `tp_start_ts` changes exactly
when the counters are cleared. -/
def sentSince (sent : Int → Nat) (st st' : TransmitState) : Int → Nat :=
  if st'.tpStartTs = st.tpStartTs then sent else fun _ => 0

/-- An iteration, together with the packets sent for each slot since the counters were last
cleared. -/
def windowStep (env : ClientEnv) (s : TransmitState × (Int → Nat)) (inp : TransmitInput) :
    (TransmitState × (Int → Nat)) × List ClientEvent :=
  let (st, events) := transmitStep env s.1 inp
  let sent := sentSince s.2 s.1 st
  ((st, Function.update sent s.1.flow (sent s.1.flow + sentPackets events)), events)

/-- The bounds, with the timer at `ts`. -/
structure WindowOk (env : ClientEnv) (ts : UInt64) (s : TransmitState × (Int → Nat)) : Prop where
  place : FlowAt env.cntx s.1
  start : s.1.tpStartTs ≤ ts
  total : ∀ f : Nat, f < env.cntx.countFlow.toNat →
    (s.1.throughput f).toNat ≤ env.cntx.rate.toNat + env.cntx.batch.toNat
  share : ∀ f : Nat, f < env.cntx.countFlow.toNat →
    ((s.1.throughput f).toNat : ℚ) ≤ limitWindow env (s.1.deltaTime ts) + env.cntx.batch.toNat
  counted : env.cntx.rate.toNat + env.cntx.batch.toNat < 2 ^ 64 →
    ∀ f : Nat, f < env.cntx.countFlow.toNat → s.2 f = (s.1.throughput f).toNat

section
variable {env : ClientEnv} {ts ts' : UInt64} {st st' : TransmitState} {sent : Int → Nat}

theorem WindowOk.of_same (h : WindowOk env ts (st, sent)) (hs : SameWindow st st') :
    WindowOk env ts (st', sent) where
  place := h.place.of_same hs
  start := by rw [hs.tpStartTs]; exact h.start
  total := by rw [hs.throughput]; exact h.total
  share := by rw [hs.throughput, TransmitState.deltaTime, hs.tpStartTs]; exact h.share
  counted := by rw [hs.throughput]; exact h.counted

/-- Time does not run backwards. -/
theorem deltaTime_mono (hstart : st.tpStartTs ≤ ts) (hle : ts ≤ ts') :
    st.deltaTime ts ≤ st.deltaTime ts' := by
  have h1 := UInt64.le_iff_toNat_le.mp hstart
  have h2 := UInt64.le_iff_toNat_le.mp hle
  unfold TransmitState.deltaTime
  rw [UInt64.toNat_sub_of_le _ _ hstart, UInt64.toNat_sub_of_le _ _ (UInt64.le_trans hstart hle)]
  exact_mod_cast Nat.sub_le_sub_right h2 _

theorem deltaTime_nonneg : 0 ≤ st.deltaTime ts := Nat.cast_nonneg _

theorem limitWindow_mono {a b : ℚ} (h : a ≤ b) : limitWindow env a ≤ limitWindow env b :=
  mul_le_mul_of_nonneg_left (div_le_div_of_nonneg_right h (Nat.cast_nonneg _)) (Nat.cast_nonneg _)

/-- Within a second the share is at most the rate. -/
theorem limitWindow_le {a : ℚ} (h : a ≤ env.hz.toNat) :
    limitWindow env a ≤ env.cntx.rate.toNat := by
  have hle : a / env.hz.toNat ≤ 1 := div_le_one_of_le₀ h (Nat.cast_nonneg _)
  calc limitWindow env a = env.cntx.rate.toNat * (a / env.hz.toNat) := rfl
    _ ≤ env.cntx.rate.toNat * 1 := mul_le_mul_of_nonneg_left hle (Nat.cast_nonneg _)
    _ = env.cntx.rate.toNat := mul_one _

theorem limitWindow_nonneg {a : ℚ} (h : 0 ≤ a) : 0 ≤ limitWindow env a :=
  mul_nonneg (Nat.cast_nonneg _) (div_nonneg h (Nat.cast_nonneg _))

/-- Later the bounds still hold. -/
theorem WindowOk.later (h : WindowOk env ts (st, sent)) (hle : ts ≤ ts') :
    WindowOk env ts' (st, sent) where
  place := h.place
  start := UInt64.le_trans h.start hle
  total := h.total
  share := by
    intro f hf
    have hmono := @limitWindow_mono env _ _ (deltaTime_mono h.start hle)
    have hshare := h.share f hf
    linarith
  counted := h.counted

/-- **The window is entered**: the bounds hold with the new time, whether or not the counters are
cleared. -/
theorem WindowOk.enter (hone : env.cntx.dstIps.length = 1)
    (hflow : env.cntx.countFlow.toNat ≤ 65535) (h : WindowOk env ts (st, sent)) (hle : ts ≤ ts') :
    WindowOk env ts' (st.enterWindow env ts', sentSince sent st (st.enterWindow env ts')) := by
  have hplace : FlowAt env.cntx (st.enterWindow env ts') := h.place.enterWindow hone hflow
  by_cases hover : st.deltaTime ts' > env.hz.toNat
  · have htp := @enterWindow_throughput env st ts'
    have hts := @enterWindow_tpStartTs env st ts'
    rw [if_pos hover] at htp hts
    have hclear : ∀ f : Nat, f < env.cntx.countFlow.toNat →
        (st.enterWindow env ts').throughput f = 0 := by
      intro f hf
      rw [htp, clearSlots, flowSlots_single hone, if_pos ⟨by omega, by omega⟩]
    have hne : ts' ≠ st.tpStartTs := by
      rintro rfl
      rw [TransmitState.deltaTime, UInt64.sub_self] at hover
      exact absurd hover (not_lt.mpr (Nat.cast_nonneg _))
    refine ⟨hplace, by rw [hts]; exact UInt64.le_refl _, ?_, ?_, ?_⟩
    · intro f hf
      rw [hclear f hf]
      exact Nat.zero_le _
    · intro f hf
      rw [hclear f hf]
      have hnonneg := @limitWindow_nonneg env _ (@deltaTime_nonneg ts' (st.enterWindow env ts'))
      have hburst : (0 : ℚ) ≤ env.cntx.batch.toNat := Nat.cast_nonneg _
      simp only [UInt64.toNat_zero, Nat.cast_zero]
      linarith
    · intro _ f hf
      rw [hclear f hf, sentSince, hts, if_neg hne]
      rfl
  · have htp := @enterWindow_throughput env st ts'
    have hts := @enterWindow_tpStartTs env st ts'
    rw [if_neg hover] at htp hts
    have hlater := h.later hle
    refine ⟨hplace, by rw [hts]; exact hlater.start, by rw [htp]; exact hlater.total, ?_, ?_⟩
    · rw [htp, TransmitState.deltaTime, hts]
      exact hlater.share
    · rw [htp, sentSince, if_pos hts]
      exact hlater.counted

/-- What the test of the limiter says about the counter of an iteration that goes on: it is within
the rate and within the share of the new window. When the counters were just cleared the test is
made with the old `delta_time`, but there the counter is 0. -/
theorem limiter_open (hone : env.cntx.dstIps.length = 1) (hplace : FlowAt env.cntx st)
    (hopen : (((st.enterWindow env ts).throughput st.flow).toNat : ℚ)
      ≤ limitWindow env (st.deltaTime ts)) :
    (((st.enterWindow env ts).throughput st.flow).toNat : ℚ)
        ≤ limitWindow env ((st.enterWindow env ts).deltaTime ts) ∧
      ((st.enterWindow env ts).throughput st.flow).toNat ≤ env.cntx.rate.toNat := by
  have htp := @enterWindow_throughput env st ts
  have hts := @enterWindow_tpStartTs env st ts
  by_cases hover : st.deltaTime ts > env.hz.toNat
  · rw [if_pos hover] at htp
    have hoff := hplace.offset
    have hclear : (st.enterWindow env ts).throughput st.flow = 0 := by
      rw [htp, clearSlots, flowSlots_single hone, hplace.flow, if_pos ⟨by omega, by omega⟩]
    rw [hclear]
    exact ⟨by simpa using limitWindow_nonneg deltaTime_nonneg, Nat.zero_le _⟩
  · rw [if_neg hover] at hts
    have hsame : (st.enterWindow env ts).deltaTime ts = st.deltaTime ts := by
      rw [TransmitState.deltaTime, hts, TransmitState.deltaTime]
    rw [hsame]
    have hrate := le_trans hopen (limitWindow_le (not_lt.mp hover))
    exact ⟨hopen, by exact_mod_cast hrate⟩

/-- **A burst is credited.** -/
theorem WindowOk.credit {j nbTx : Nat} (h : WindowOk env ts (st, sent))
    (hnb : nbTx ≤ env.cntx.batch.toNat)
    (hshare : ((st.throughput j).toNat : ℚ) ≤ limitWindow env (st.deltaTime ts))
    (hrate : (st.throughput j).toNat ≤ env.cntx.rate.toNat) :
    WindowOk env ts (st.credit j nbTx, Function.update sent j (sent j + nbTx)) := by
  have hval : (st.throughput j + UInt64.ofNat nbTx).toNat ≤ (st.throughput j).toNat + nbTx := by
    rw [UInt64.toNat_add, UInt64.toNat_ofNat']
    have h1 := Nat.mod_le nbTx (2 ^ 64)
    have h2 := Nat.mod_le ((st.throughput j).toNat + nbTx % 2 ^ 64) (2 ^ 64)
    omega
  refine ⟨h.place.credit _ _, h.start, ?_, ?_, ?_⟩
  · intro f hf
    rw [credit_throughput]
    split
    · omega
    · exact h.total f hf
  · intro f hf
    have hdelta : (st.credit j nbTx).deltaTime ts = st.deltaTime ts := rfl
    rw [credit_throughput, hdelta]
    split
    · have hcast : ((st.throughput j + UInt64.ofNat nbTx).toNat : ℚ)
          ≤ (st.throughput j).toNat + env.cntx.batch.toNat := by
        exact_mod_cast le_trans hval (Nat.add_le_add_left hnb _)
      linarith
    · exact h.share f hf
  · intro hfits f hf
    have hcnt : sent f = (st.throughput f).toNat := h.counted hfits f hf
    rw [credit_throughput]
    simp only [Function.update_apply, Nat.cast_inj]
    by_cases hfj : f = j
    · subst hfj
      have hsmall : (UInt64.ofNat nbTx).toNat = nbTx :=
        UInt64.toNat_ofNat_of_lt' (by simp only [UInt64.size]; omega)
      rw [if_pos rfl, if_pos rfl, UInt64.toNat_add, hsmall, hcnt]
      exact (Nat.mod_eq_of_lt (by omega)).symm
    · rw [if_neg hfj, if_neg hfj]
      exact hcnt

/-- Whatever an iteration does, the bounds are kept. -/
theorem WindowStep.ok (hone : env.cntx.dstIps.length = 1)
    (hflow : env.cntx.countFlow.toNat ≤ 65535) (hlimited : env.cntx.rateLimit = true)
    {inp : TransmitInput} {events : List ClientEvent} (hstep : WindowStep env st inp st' events)
    (h : WindowOk env ts (st, sent)) (hle : ts ≤ inp.endTime) :
    WindowOk env inp.endTime (st', Function.update (sentSince sent st st') st.flow
      (sentSince sent st st' st.flow + sentPackets events)) := by
  have hnext := h.enter hone hflow hle
  cases hstep with
  | idle hsame =>
    have hsent : sentSince sent st st' = sent := if_pos hsame.tpStartTs
    have hupdate : Function.update sent st.flow (sent st.flow + sentPackets []) = sent :=
      Function.update_eq_self _ _
    rw [hsent, hupdate]
    exact (h.later hle).of_same hsame
  | held hzero hsame hev =>
    have hsent : sentSince sent st st' = sentSince sent st (st.enterWindow env inp.endTime) := by
      rw [sentSince, hsame.tpStartTs, sentSince]
    have hnone : sentPackets events = 0 := by
      rcases hev with rfl | ⟨bufs, rfl⟩ <;> rfl
    rw [hsent, hnone, Nat.add_zero, Function.update_eq_self]
    exact hnext.of_same hsame
  | sent hzero hopen hbuilt hsame hrest hev =>
    have hsent : sentSince sent st st' = sentSince sent st (st.enterWindow env inp.endTime) := by
      rw [sentSince, hsame.tpStartTs, credit_tpStartTs, sentSince]
    obtain ⟨hshare, hrate⟩ := limiter_open hone h.place (hopen hlimited)
    have hflowAt : st.flow = ((st.dstPort - env.cntx.basePortNumber).toNat : Nat) := h.place.flow
    have hcount : sentPackets events = txBurst inp.willing env.cntx.batch.toNat := by
      rw [hev]
      exact sentPackets_burst hbuilt hrest
    rw [hsent, hcount, hflowAt]
    rw [hflowAt] at hshare hrate hsame
    exact (hnext.credit (txBurst_le _ _) hshare hrate).of_same hsame

/-- **The bounds are kept by every iteration.** -/
theorem windowStep_ok (hone : env.cntx.dstIps.length = 1)
    (hflow : env.cntx.countFlow.toNat ≤ 65535) (hlimited : env.cntx.rateLimit = true)
    {s : TransmitState × (Int → Nat)} {inp : TransmitInput} (h : WindowOk env ts s)
    (hle : ts ≤ inp.endTime) : WindowOk env inp.endTime (windowStep env s inp).1 :=
  (transmitStep_window env s.1 inp).ok hone hflow hlimited h hle

/-- The last reading of the timer. -/
def timerAfter (now : UInt64) (inps : List TransmitInput) : UInt64 :=
  inps.foldl (fun _ inp => inp.endTime) now

/-- **The bounds hold in every run.** -/
theorem window_run_ok (hone : env.cntx.dstIps.length = 1)
    (hflow : env.cntx.countFlow.toNat ≤ 65535) (hlimited : env.cntx.rateLimit = true) :
    ∀ (inps : List TransmitInput) {now : UInt64} {s : TransmitState × (Int → Nat)},
      WindowOk env now s → (now :: inps.map TransmitInput.endTime).Pairwise (· ≤ ·) →
      WindowOk env (timerAfter now inps) (final (windowStep env) s inps)
  | [], _, _, h, _ => h
  | inp :: inps, now, s, h, htime => by
    rw [List.map_cons, List.pairwise_cons] at htime
    have hle : now ≤ inp.endTime := htime.1 _ List.mem_cons_self
    exact window_run_ok hone hflow hlimited inps (windowStep_ok hone hflow hlimited h hle) htime.2

/-- The observer does not change the run. -/
theorem windowStep_run : ∀ (inps : List TransmitInput) (s : TransmitState × (Int → Nat)),
    (final (windowStep env) s inps).1 = final (transmitStep env) s.1 inps
  | [], _ => rfl
  | inp :: inps, s => windowStep_run inps (windowStep env s inp).1

/-- Freshly filled counters are within the bounds. -/
theorem transmitInit_windowOk {fuel : Nat} {stack tables : FlowTables}
    (hone : env.cntx.dstIps.length = 1) (hmin : 1 ≤ env.cntx.countFlow.toNat)
    (hfill : fillFlows env.cntx fuel 0 stack = some tables) (now : UInt64) :
    WindowOk env now (transmitInit env tables now, fun _ => 0) := by
  have hzero : ∀ f : Nat, f < env.cntx.countFlow.toNat →
      (transmitInit env tables now).throughput f = 0 := by
    intro f hf
    rw [← flowSlots_single hone] at hf
    exact ((fillFlows_spec hfill fun j hj => absurd hj (Nat.not_lt_zero j)).2 f hf).2
  refine ⟨transmitInit_flowAt tables now hmin, UInt64.le_refl _, ?_, ?_, ?_⟩
  · intro f hf
    rw [hzero f hf]
    exact Nat.zero_le _
  · intro f hf
    have hnonneg := @limitWindow_nonneg env _ (@deltaTime_nonneg now (transmitInit env tables now))
    have hburst : (0 : ℚ) ≤ env.cntx.batch.toNat := Nat.cast_nonneg _
    rw [hzero f hf, UInt64.toNat_zero, Nat.cast_zero]
    exact add_nonneg hnonneg hburst
  · intro _ f hf
    rw [hzero f hf]
    rfl

end

/--
**The rate limit.** In every run with the timer never going back, after every iteration each
counter is within the rate and a burst, and within the share of the rate that belongs to the
current window and a burst. If the counters cannot wrap around, this is also a bound for the
packets sent for a slot between two resets.
-/
theorem rate_limit_bounds (env : ClientEnv) (hone : env.cntx.dstIps.length = 1)
    (hmin : 1 ≤ env.cntx.countFlow.toNat) (hmax : env.cntx.countFlow.toNat ≤ 65535)
    (hlimited : env.cntx.rateLimit = true) (fuel : Nat) (stack tables : FlowTables)
    (hfill : fillFlows env.cntx fuel 0 stack = some tables) (now : UInt64)
    (inps : List TransmitInput)
    (htime : (now :: inps.map TransmitInput.endTime).Pairwise (· ≤ ·)) :
    let st := final (transmitStep env) (transmitInit env tables now) inps
    let sent := (final (windowStep env) (transmitInit env tables now, fun _ => 0) inps).2
    ∀ f : Nat, f < env.cntx.countFlow.toNat →
      (st.throughput f).toNat ≤ env.cntx.rate.toNat + env.cntx.batch.toNat ∧
      ((st.throughput f).toNat : ℚ)
        ≤ env.cntx.rate.toNat * (timerAfter now inps - st.tpStartTs).toNat / env.hz.toNat
          + env.cntx.batch.toNat ∧
      (env.cntx.rate.toNat + env.cntx.batch.toNat < 2 ^ 64 →
        sent f ≤ env.cntx.rate.toNat + env.cntx.batch.toNat) := by
  intro st sent f hf
  have hinit := transmitInit_windowOk hone hmin hfill now
  have hok := window_run_ok hone hmax hlimited inps hinit htime
  have hrun : (final (windowStep env) (transmitInit env tables now, fun _ => 0) inps).1 = st :=
    windowStep_run inps _
  have htotal := hok.total f hf
  have hshare := hok.share f hf
  rw [hrun] at htotal hshare
  refine ⟨htotal, ?_, fun hfits => ?_⟩
  · rw [limitWindow, ← mul_div_assoc] at hshare
    exact hshare
  · have hcount := hok.counted hfits f hf
    rw [hrun] at hcount
    exact hcount.le.trans htotal

/-- A client with the given limit that sends its packets one by one. -/
def limitedClientEnv (rate : UInt64) : ClientEnv :=
  { zipfClientEnv with
    cntx := { zipfClientEnv.cntx with rateLimit := true, rate := rate, batch := 1 } }

/-- Ten packets a second for two flows. -/
def twoFlowLimitedEnv : ClientEnv :=
  { limitedClientEnv 10 with cntx := { (limitedClientEnv 10).cntx with countFlow := 2 } }

/-- Two packets in the first second, and three from the reset at 1200 on. -/
def readyAcrossReset : List TransmitInput :=
  [readyInput 100, readyInput 200, readyInput 1200, readyInput 1300, readyInput 1400]

/-- The bounds on both flows, in the window that began with the reset. -/
theorem rate_limit_bounds_two_flows : ∃ tables,
    fillFlows twoFlowLimitedEnv.cntx 3 0 ⟨fun _ => 7, fun _ => 7⟩ = some tables ∧
    let run := final (windowStep twoFlowLimitedEnv)
      (transmitInit twoFlowLimitedEnv tables 0, fun _ => 0) readyAcrossReset
    run.1.tpStartTs = 1200 ∧ (run.2 0, run.2 1) = (2, 1) ∧ run.2 0 ≤ 11 ∧ run.2 1 ≤ 11 := by
  refine ⟨_, rfl, ?_⟩
  intro run
  have hbounds := rate_limit_bounds twoFlowLimitedEnv rfl (by decide) (by decide) rfl 3
    ⟨fun _ => 7, fun _ => 7⟩ _ rfl 0 readyAcrossReset (by decide)
  have hfits : twoFlowLimitedEnv.cntx.rate.toNat + twoFlowLimitedEnv.cntx.batch.toNat < 2 ^ 64 := by
    decide
  refine ⟨?_, ?_, (hbounds 0 (by decide)).2.2 hfits, (hbounds 1 (by decide)).2.2 hfits⟩
  · decide +kernel
  · decide +kernel

/-! ## A limit that the counters cannot hold -/

/-- `--rate -1 --batch 1`: the largest limit. -/
def fullRateEnv : ClientEnv := limitedClientEnv 18446744073709551615

/-- In the middle of the first second. -/
structure Steady (st : TransmitState) : Prop where
  pc : st.pc = .loop
  canSend : st.canSend = true
  duration : st.duration = 0
  start : st.tpStartTs = 0
  place : FlowAt fullRateEnv.cntx st

section
variable {st : TransmitState} {sent : Int → Nat}

theorem Steady.flow_eq (h : Steady st) : st.flow = 0 := by
  have hoff : (st.dstPort - fullRateEnv.cntx.basePortNumber).toNat < 1 := h.place.offset
  rw [h.place.flow, Nat.lt_one_iff.mp hoff]
  rfl

/-- A second after the start, but not later, the share is the limit itself. -/
theorem Steady.limit_eq (h : Steady st) :
    limitWindow fullRateEnv (st.deltaTime 1000) = 18446744073709551615 := by
  rw [TransmitState.deltaTime, h.start]
  have hdelta : ((1000 : UInt64) - 0).toNat = 1000 := rfl
  have hhz : fullRateEnv.hz.toNat = 1000 := rfl
  have hrate : fullRateEnv.cntx.rate.toNat = 18446744073709551615 := rfl
  rw [limitWindow, hdelta, hhz, hrate]
  norm_num

/-- No counter is above this limit: a packet is sent. -/
theorem Steady.step (h : Steady st) :
    ∃ st', (windowStep fullRateEnv (st, sent) (readyInput 1000)).1
      = (st', Function.update sent 0 (sent 0 + 1)) ∧ Steady st' := by
  have hopen : ((((st.selectNext fullRateEnv.cntx).resetWindow fullRateEnv
      (readyInput 1000).endTime).throughput st.flow).toNat : ℚ)
      ≤ limitWindow fullRateEnv (st.deltaTime (readyInput 1000).endTime) := by
    generalize ((st.selectNext fullRateEnv.cntx).resetWindow fullRateEnv
      (readyInput 1000).endTime).throughput st.flow = n
    have hlim : limitWindow fullRateEnv (st.deltaTime (readyInput 1000).endTime)
        = 18446744073709551615 := h.limit_eq
    have hn : n.toNat ≤ 18446744073709551615 := Nat.le_of_lt_succ n.toNat_lt
    rw [hlim]
    exact_mod_cast hn
  have hports : fullRateEnv.client.uniqueClientPorts ≠ 0 := by decide
  have hpool : (readyInput 1000).pool = some fun j => (j, fun _ => 0) := rfl
  obtain ⟨st', qid, taken, measured, rest, hsend, -, hpc, hcan, hdur⟩ :=
    transmitStep_sends_zipf rfl hports (fun _ => Nat.le_of_ble_eq_true rfl) h.pc h.canSend
      h.duration h.place.selectedDst (fun _ => hopen) hpool
  have hmem : SendsBurst (transmitStep fullRateEnv st (readyInput 1000)).2 := by
    rw [hsend]
    exact ⟨0, qid, taken, measured, List.mem_cons_of_mem _ List.mem_cons_self⟩
  obtain ⟨-, hsame, hcount⟩ := (transmitStep_window fullRateEnv st (readyInput 1000)).credits hmem
  have hst : (transmitStep fullRateEnv st (readyInput 1000)).1 = st' := by rw [hsend]
  have hone : txBurst (readyInput 1000).willing fullRateEnv.cntx.batch.toNat = 1 := by decide
  have hstart : (st.enterWindow fullRateEnv (readyInput 1000).endTime).tpStartTs = 0 := by
    rw [enterWindow_tpStartTs, if_neg, h.start]
    rw [TransmitState.deltaTime, h.start]
    exact lt_irrefl _
  rw [hst] at hsame
  have htp : st'.tpStartTs = 0 := by rw [hsame.tpStartTs, credit_tpStartTs, hstart]
  have hsince : sentSince sent st st' = sent := if_pos (htp.trans h.start.symm)
  have hplace := @FlowAt.enterWindow st fullRateEnv (readyInput 1000).endTime rfl (by decide)
    h.place
  refine ⟨st', ?_, hpc, hcan, hdur, htp, (hplace.credit _ _).of_same hsame⟩
  simp only [windowStep, hcount, hone, hst, hsince, h.flow_eq]

theorem Steady.run (h : Steady st) (n : Nat) :
    (final (windowStep fullRateEnv) (st, sent) (List.replicate n (readyInput 1000))).2 0
      = sent 0 + n := by
  induction n generalizing st sent with
  | zero => rfl
  | succ n ih =>
    obtain ⟨st', hstep, hsteady⟩ := @Steady.step st sent h
    rw [List.replicate_succ, final_cons, hstep, ih hsteady, Function.update_self]
    omega

end

/-- The counter wraps around: `2^64 + 1` packets are sent before the next reset, one more than the
rate and a burst. -/
theorem rate_limit_wraps : ∃ tables inps,
    fillFlows fullRateEnv.cntx 2 0 ⟨fun _ => 7, fun _ => 7⟩ = some tables ∧
    (0 :: inps.map TransmitInput.endTime).Pairwise (· ≤ ·) ∧
    fullRateEnv.cntx.rate.toNat + fullRateEnv.cntx.batch.toNat
      < (final (windowStep fullRateEnv) (transmitInit fullRateEnv tables 0, fun _ => 0) inps).2
        0 := by
  refine ⟨_, List.replicate (2 ^ 64 + 1) (readyInput 1000), rfl, ?_, ?_⟩
  · rw [List.map_replicate, List.pairwise_cons]
    refine ⟨fun ts hts => ?_, List.pairwise_replicate.mpr (Or.inr (UInt64.le_refl _))⟩
    rw [List.eq_of_mem_replicate hts]
    decide
  · have hsteady : ∀ tables, Steady (transmitInit fullRateEnv tables 0) := fun tables =>
      ⟨rfl, rfl, show UInt64.ofInt 0 * 1000 = 0 by decide, rfl,
        transmitInit_flowAt tables 0 (by decide)⟩
    rw [(hsteady _).run]
    decide

end DpdkEcho
