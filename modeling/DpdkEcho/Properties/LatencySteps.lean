import DpdkEcho.LatencyClient

/-!
# The steps of the latency client

`latencyStep_cases` says once what a step can do. `replyPacket_cases` does so for one packet of
a received burst.
-/

namespace DpdkEcho

open Infra

/-! ## One packet of a burst -/

section
variable {hz : UInt64} {cntx : Context} {delta : UInt16} {resp : UInt64}

/-- The frame is counted as a reply. -/
def countsAsReply (cntx : Context) (buf : Mbuf) : Bool :=
  (checkEthHdr cntx.srcIp cntx.myEth buf).valid

/-- What the loop body does with a packet: it is freed, and `nb_tx` goes down by one exactly for
the packets that pass `check_eth_hdr`. -/
theorem replyPacket_cases (st : ReplyState) (buf : Mbuf) :
    (st.aborted = true ∧ replyPacket hz cntx delta resp st buf = (st, [])) ∨
    (st.aborted = false ∧ countsAsReply cntx buf = false ∧ ∃ args : List ArpSend,
      replyPacket hz cntx delta resp st buf = (st, args.map .arp ++ [.free buf])) ∨
    (st.aborted = false ∧ countsAsReply cntx buf = true ∧
      (replyPacket hz cntx delta resp st buf).1.nbTx = st.nbTx - 1 ∧
      ∃ rest : List LatencyEvent, (replyPacket hz cntx delta resp st buf).2
          = .countDown st.nbTx :: .free buf :: rest ∧
        ∀ e ∈ rest, ∃ timestamp latency, e = .measure timestamp latency) := by
  unfold replyPacket countsAsReply
  cases hst : st.aborted with
  | true => exact Or.inl ⟨rfl, rfl⟩
  | false =>
    refine Or.inr ?_
    cases hv : (checkEthHdr cntx.srcIp cntx.myEth buf).valid with
    | false =>
      exact Or.inl ⟨rfl, rfl, (checkEthHdr cntx.srcIp cntx.myEth buf).reply.toList, by simp [hv]⟩
    | true =>
      refine Or.inr ⟨rfl, rfl, ?_⟩
      by_cases ht : load16 buf.data ethEtherType = etherTypeIpv4
      · simp [hv, ht]
      · simp [hv, ht]

theorem replyPacket_aborted {st : ReplyState} (h : st.aborted = true) (bufs : List Mbuf) :
    final (replyPacket hz cntx delta resp) st bufs = st ∧
      trace (replyPacket hz cntx delta resp) st bufs = [] := by
  induction bufs with
  | nil => exact ⟨rfl, rfl⟩
  | cons b bs ih =>
    have hstep : replyPacket hz cntx delta resp st b = (st, []) := by rw [replyPacket, if_pos h]
    rw [final_cons, trace_cons, hstep]
    exact ⟨ih.1, by rw [ih.2]; rfl⟩

end

/-! ## One step -/

/-- The client still runs when the step tests `running` for the first time. -/
def stillRunning (st : LatencyState) (inp : LatencyInput) : Prop :=
  st.running = true ∧ inp.interrupt = false

/-- The buffers could be allocated and filled. -/
def batchReady (env : LatencyEnv) (inp : LatencyInput) : Prop :=
  ∃ pool built, inp.pool = some pool ∧
    buildBatch env.cksums env.cntx env.serverEth pool inp.buildTime = some built

/-- The step gives up the current batch. -/
def timedOut (env : LatencyEnv) (st : LatencyState) (inp : LatencyInput) : Prop :=
  inp.pollTime - st.startSinceSent > env.hz

/-- The frames a turn of the receive loop reads. -/
def arrivals (inp : LatencyInput) : List Arrival := rxBurst inp.waiting latencyBurstSize

section
variable {env : LatencyEnv} {st : LatencyState} {inp : LatencyInput}

theorem latencyStep_top (hpc : st.pc = .top) (hrun : stillRunning st inp) :
    latencyStep env st inp = sendBatch env st inp := by
  obtain ⟨pc, running, nbTx, start, measurements⟩ := st
  obtain ⟨rfl, hi⟩ := hrun
  simp only [latencyStep, show pc = .top from hpc, hi]
  rfl

theorem latencyStep_poll (hpc : st.pc = .poll) (hrun : stillRunning st inp) :
    latencyStep env st inp = pollReplies env st inp := by
  obtain ⟨pc, running, nbTx, start, measurements⟩ := st
  obtain ⟨rfl, hi⟩ := hrun
  simp only [latencyStep, show pc = .poll from hpc, hi]
  rfl

theorem latencyStep_interrupted (hrun : ¬ stillRunning st inp) :
    (st.pc = .top → latencyStep env st inp = ({ st with running := false, pc := .stopped }, [])) ∧
      (st.pc = .poll →
        latencyStep env st inp = ({ st with running := false, pc := .top }, [])) := by
  have hstop : (st.running && !inp.interrupt) = false := by
    rw [Bool.eq_false_iff]
    intro hc
    rw [Bool.and_eq_true, Bool.not_eq_true'] at hc
    exact hrun hc
  constructor
  · intro hpc
    simp only [latencyStep, hpc, hstop]
    rfl
  · intro hpc
    simp only [latencyStep, hpc, hstop]
    rfl

/-- A client that has stopped or crashed does nothing any more. -/
theorem latencyStep_ended (h : st.pc = .stopped ∨ st.pc = .aborted) :
    latencyStep env st inp = (st, []) := by
  rcases h with h | h <;> simp only [latencyStep, h]

end

/--
Everything a step can do: nothing to the batch (the client stops, has stopped, or gets no
buffers), crash, send a batch, give it up, find no frame, or process a burst.
-/
theorem latencyStep_cases (env : LatencyEnv) (st : LatencyState) (inp : LatencyInput) :
    (∃ pc running, latencyStep env st inp = ({ st with pc := pc, running := running }, []) ∧
      (st.pc = .top → ¬ (stillRunning st inp ∧ batchReady env inp)) ∧
      (st.pc = .poll → ¬ stillRunning st inp) ∧
      ((pc = st.pc ∧ running = st.running) ∨
        (running = false ∧ (st.pc = .top ∧ pc = .stopped ∨ st.pc = .poll ∧ pc = .top)))) ∨
    (st.pc = .top ∧ ¬ batchReady env inp ∧
      ∃ bufs, latencyStep env st inp = ({ st with pc := .aborted }, [.alloc bufs])) ∨
    (st.pc = .top ∧ stillRunning st inp ∧ ∃ pool built, inp.pool = some pool ∧
      buildBatch env.cksums env.cntx env.serverEth pool inp.buildTime = some built ∧
      latencyStep env st inp =
        ({ st with
            pc := .poll
            nbTx := UInt32.ofNat (txBurst inp.willing env.cntx.batch.toNat)
            startSinceSent := inp.startTime },
          [.alloc (allocBulk env.cntx pool),
            .tx (built.take (txBurst inp.willing env.cntx.batch.toNat))])) ∨
    (st.pc = .poll ∧ stillRunning st inp ∧ timedOut env st inp ∧
      latencyStep env st inp = ({ st with pc := .top },
        [.rx (arrivals inp), .lost (inp.pollTime - st.startSinceSent)])) ∨
    (st.pc = .poll ∧ stillRunning st inp ∧ ¬ timedOut env st inp ∧ arrivals inp = [] ∧
      latencyStep env st inp = (st, [.rx []])) ∨
    (st.pc = .poll ∧ stillRunning st inp ∧ ¬ timedOut env st inp ∧
      latencyStep env st inp =
        ((processBurst env st inp ((arrivals inp).map Arrival.buf)).1,
          .rx (arrivals inp) :: (processBurst env st inp ((arrivals inp).map Arrival.buf)).2)) := by
  cases hpc : st.pc with
  | stopped =>
    exact Or.inl ⟨.stopped, st.running, by rw [latencyStep_ended (Or.inl hpc), ← hpc],
      by simp, by simp, Or.inl ⟨rfl, rfl⟩⟩
  | aborted =>
    exact Or.inl ⟨.aborted, st.running, by rw [latencyStep_ended (Or.inr hpc), ← hpc],
      by simp, by simp, Or.inl ⟨rfl, rfl⟩⟩
  | top =>
    by_cases hrun : stillRunning st inp
    · rw [latencyStep_top hpc hrun, sendBatch]
      cases hpool : inp.pool with
      | none =>
        refine Or.inl ⟨.top, st.running, by rw [← hpc], ?_, by simp, Or.inl ⟨rfl, rfl⟩⟩
        rintro - ⟨-, pool, built, hpool', -⟩
        rw [hpool] at hpool'
        cases hpool'
      | some pool =>
        cases hbuilt : buildBatch env.cksums env.cntx env.serverEth pool inp.buildTime with
        | none =>
          refine Or.inr (Or.inl ⟨rfl, ?_, allocBulk env.cntx pool, by simp only [hbuilt]⟩)
          rintro ⟨pool', built, hpool', hbuilt'⟩
          rw [← Option.some.inj (hpool.symm.trans hpool'), hbuilt] at hbuilt'
          cases hbuilt'
        | some built =>
          refine Or.inr (Or.inr (Or.inl ⟨rfl, hrun, pool, built, rfl, hbuilt, ?_⟩))
          simp only [hbuilt]
    · rw [(latencyStep_interrupted hrun).1 hpc]
      exact Or.inl ⟨.stopped, false, rfl, fun _ h => hrun h.1, by simp,
        Or.inr ⟨rfl, Or.inl ⟨rfl, rfl⟩⟩⟩
  | poll =>
    by_cases hrun : stillRunning st inp
    · have hpoll : latencyStep env st inp = pollReplies env st inp := latencyStep_poll hpc hrun
      by_cases hto : timedOut env st inp
      · exact Or.inr (Or.inr (Or.inr (Or.inl ⟨rfl, hrun, hto, hpoll.trans (if_pos hto)⟩)))
      · have hread := hpoll.trans (if_neg hto)
        by_cases hempty : arrivals inp = []
        · refine Or.inr (Or.inr (Or.inr (Or.inr (Or.inl ⟨rfl, hrun, hto, hempty, ?_⟩))))
          exact hread.trans (if_pos (List.isEmpty_iff.mpr hempty))
        · refine Or.inr (Or.inr (Or.inr (Or.inr (Or.inr ⟨rfl, hrun, hto, ?_⟩))))
          exact hread.trans (if_neg fun h => hempty (List.isEmpty_iff.mp h))
    · rw [(latencyStep_interrupted hrun).2 hpc]
      exact Or.inl ⟨.top, false, rfl, by simp, fun _ => hrun, Or.inr ⟨rfl, Or.inr ⟨rfl, rfl⟩⟩⟩

/-- Where an action comes from: the head of the outer loop, the receive call and the check of the
wait, or the burst that is processed. -/
theorem mem_latencyStep {env : LatencyEnv} {st : LatencyState} {inp : LatencyInput}
    {e : LatencyEvent} (h : e ∈ (latencyStep env st inp).2) :
    (∃ bufs, e = .alloc bufs) ∨
    (st.pc = .top ∧ stillRunning st inp ∧ ∃ taken, e = .tx taken) ∨
    (∃ frames, e = .rx frames) ∨ (∃ waited, e = .lost waited) ∨
    (st.pc = .poll ∧ stillRunning st inp ∧ ¬ timedOut env st inp ∧
      e ∈ (processBurst env st inp ((arrivals inp).map Arrival.buf)).2) := by
  rcases latencyStep_cases env st inp with
    ⟨pc, running, he, -⟩ | ⟨-, -, bufs, he⟩ | ⟨hpc, hrun, pool, built, -, -, he⟩ |
    ⟨-, -, -, he⟩ | ⟨-, -, -, -, he⟩ | ⟨hpc, hrun, hto, he⟩
  · rw [he] at h
    cases h
  · rw [he] at h
    exact Or.inl ⟨bufs, List.mem_singleton.mp h⟩
  · rw [he] at h
    rcases List.mem_pair.mp h with h | h
    · exact Or.inl ⟨_, h⟩
    · exact Or.inr (Or.inl ⟨hpc, hrun, _, h⟩)
  · rw [he] at h
    rcases List.mem_pair.mp h with h | h
    · exact Or.inr (Or.inr (Or.inl ⟨_, h⟩))
    · exact Or.inr (Or.inr (Or.inr (Or.inl ⟨_, h⟩)))
  · rw [he] at h
    exact Or.inr (Or.inr (Or.inl ⟨_, List.mem_singleton.mp h⟩))
  · rw [he] at h
    rcases List.mem_cons.mp h with h | h
    · exact Or.inr (Or.inr (Or.inl ⟨_, h⟩))
    · exact Or.inr (Or.inr (Or.inr (Or.inr ⟨hpc, hrun, hto, h⟩)))

/-- A burst that does not crash the client was processed to its end. -/
theorem processBurst_live {env : LatencyEnv} {st : LatencyState} {inp : LatencyInput}
    {bufs : List Mbuf} (h : (processBurst env st inp bufs).1.pc ≠ .aborted) :
    (final (replyPacket env.hz env.cntx env.hdrSizeDelta inp.respRecvTime)
      { nbTx := st.nbTx, measurements := st.measurements, aborted := false } bufs).aborted
        = false := by
  rw [← Bool.not_eq_true]
  intro hab
  apply h
  simp only [processBurst, hab, if_true]

end DpdkEcho
