import Mathlib.Data.List.Nodup
import DpdkEcho.Properties.LatencyBuffers

/-!
# One batch at a time

`nb_tx` is meant to be the number of packets of the current batch that are still out. The client
takes one off for every frame that passes `check_eth_hdr`, whatever it is. The counter is right,
and a new batch waits for the replies of the one before, as long as the frames that pass are the
replies to the current batch, each once.
-/

namespace DpdkEcho

open Infra

/-! ## What an observer sees -/

/-- A log of the batches, kept by somebody who knows which frame answers which packet. -/
structure BatchLog where
  /-- The number of batches sent. -/
  number : Nat
  /-- How many packets of the current batch the driver took. -/
  accepted : Nat
  /-- The packets of the current batch whose replies were received, in order of arrival. -/
  replied : List Nat
  /-- The wait after which the current batch was declared lost. -/
  lost : Option UInt64

/-- The log before the first batch. -/
def BatchLog.empty : BatchLog := { number := 0, accepted := 0, replied := [], lost := none }

/-- The packets of batch `number` that the frames are replies to. -/
def repliesTo (number : Nat) (frames : List Arrival) : List Nat :=
  frames.filterMap fun a => a.origin.bind fun (batch, i) => if batch = number then some i else none

/-- Keep the log. -/
def observe (log : BatchLog) : LatencyEvent → BatchLog
  | .tx taken => { number := log.number + 1, accepted := taken.length, replied := [], lost := none }
  | .rx frames => { log with replied := log.replied ++ repliesTo log.number frames }
  | .lost waited => { log with lost := some waited }
  | _ => log

/-- The step takes nothing for a reply that is none: in a burst that is processed, the frames
that pass `check_eth_hdr` are replies to packets of the current batch that had no reply yet, and
all such replies pass. In a burst that is dropped because of the timeout there is no reply to
the current batch. -/
def OnlyCurrentReplies (env : LatencyEnv) (s : LatencyState × BatchLog) (inp : LatencyInput) :
    Prop :=
  s.1.pc = .poll → stillRunning s.1 inp →
    (timedOut env s.1 inp → repliesTo s.2.number (arrivals inp) = []) ∧
    (¬ timedOut env s.1 inp →
      (∀ a ∈ arrivals inp,
        countsAsReply env.cntx a.buf = true ↔ ∃ i, a.origin = some (s.2.number, i)) ∧
      (s.2.replied ++ repliesTo s.2.number (arrivals inp)).Nodup ∧
      ∀ i ∈ repliesTo s.2.number (arrivals inp), i < s.2.accepted)

/-! ## Counting down -/

/-- Under the condition a burst holds as many replies as frames that pass `check_eth_hdr`. -/
theorem length_repliesTo {cntx : Context} {number : Nat} : ∀ {frames : List Arrival},
    (∀ a ∈ frames, countsAsReply cntx a.buf = true ↔ ∃ i, a.origin = some (number, i)) →
    (repliesTo number frames).length
      = (frames.map Arrival.buf).countP (countsAsReply cntx)
  | [], _ => rfl
  | a :: frames, h => by
    have ih := length_repliesTo fun b hb => h b (List.mem_cons_of_mem a hb)
    have ha := h a List.mem_cons_self
    rw [List.map_cons, List.countP_cons, ← ih]
    by_cases hc : countsAsReply cntx a.buf = true
    · obtain ⟨i, hi⟩ := ha.mp hc
      simp [repliesTo, hi, hc]
    · have hnone : (a.origin.bind fun (batch, i) => if batch = number then some i else none)
          = none := by
        cases ho : a.origin with
        | none => rfl
        | some o =>
          obtain ⟨batch, i⟩ := o
          refine if_neg fun hb => hc (ha.mpr ⟨i, ?_⟩)
          rw [ho, hb]
      simp [repliesTo, hnone, hc]

/-- **A burst with no more counted frames than are outstanding** never takes the counter below
zero, and takes off as many as it counts. -/
theorem replies_count (hz : UInt64) (cntx : Context) (delta : UInt16) (resp : UInt64) :
    ∀ (bufs : List Mbuf) (st : ReplyState),
      bufs.countP (countsAsReply cntx) ≤ st.nbTx.toNat →
      (∀ v, .countDown v ∈ trace (replyPacket hz cntx delta resp) st bufs → v ≠ 0) ∧
      ((final (replyPacket hz cntx delta resp) st bufs).aborted = false →
        (final (replyPacket hz cntx delta resp) st bufs).nbTx.toNat
          + bufs.countP (countsAsReply cntx) = st.nbTx.toNat)
  | [], st, _ => ⟨fun v hv => by simp at hv, fun _ => rfl⟩
  | b :: bs, st, h => by
    rw [List.countP_cons] at h ⊢
    rw [trace_cons, final_cons]
    rcases replyPacket_cases st b with ⟨hab, he⟩ | ⟨-, hc, args, he⟩ | ⟨-, hc, hnb, rest, he, hrest⟩
    · rw [he, (replyPacket_aborted hab bs).1, (replyPacket_aborted hab bs).2]
      constructor
      · intro v hv
        simp at hv
      · intro hfin
        rw [hab] at hfin
        cases hfin
    · rw [hc] at h ⊢
      obtain ⟨ih1, ih2⟩ := replies_count hz cntx delta resp bs st (by simpa using h)
      rw [he]
      constructor
      · intro v hv
        rcases List.mem_append.mp hv with hv | hv
        · simp at hv
        · exact ih1 v hv
      · intro hfin
        simpa using ih2 hfin
    · -- a counted frame: there is one outstanding, so the subtraction does not wrap
      rw [if_pos hc] at h ⊢
      have hpos : st.nbTx ≠ 0 := by
        intro h0
        rw [h0] at h
        simp at h
      have hone : 1 ≤ st.nbTx.toNat := Nat.le_trans (Nat.le_add_left 1 _) h
      have hsub : (st.nbTx - 1).toNat = st.nbTx.toNat - 1 :=
        UInt32.toNat_sub_of_le _ _ (UInt32.le_iff_toNat_le.mpr hone)
      obtain ⟨ih1, ih2⟩ := replies_count hz cntx delta resp bs
        (replyPacket hz cntx delta resp st b).1 (by rw [hnb, hsub]; omega)
      constructor
      · intro v hv
        rcases List.mem_append.mp hv with hv | hv
        · rw [he] at hv
          rcases List.mem_cons.mp hv with hv | hv
          · rw [LatencyEvent.countDown.inj hv]
            exact hpos
          · rcases List.mem_cons.mp hv with hv | hv
            · cases hv
            · obtain ⟨timestamp, latency, hv⟩ := hrest _ hv
              cases hv
        · exact ih1 v hv
      · intro hfin
        have := ih2 hfin
        rw [hnb, hsub] at this
        omega

/-- Nothing the client does with one packet is of interest to the observer, who saw it arrive. -/
theorem observe_reply (hz : UInt64) (cntx : Context) (delta : UInt16) (resp : UInt64)
    (log : BatchLog) (st : ReplyState) (b : Mbuf) :
    ∀ e ∈ (replyPacket hz cntx delta resp st b).2, observe log e = log := by
  intro e hmem
  rcases replyPacket_cases st b with ⟨-, he⟩ | ⟨-, -, args, he⟩ | ⟨-, -, -, rest, he, hrest⟩
  · rw [he] at hmem
    simp at hmem
  · rw [he, List.mem_append] at hmem
    rcases hmem with hmem | hmem
    · obtain ⟨a, -, rfl⟩ := List.mem_map.mp hmem
      rfl
    · rw [List.mem_singleton.mp hmem]
      rfl
  · rw [he] at hmem
    rcases List.mem_cons.mp hmem with rfl | hmem
    · rfl
    · rcases List.mem_cons.mp hmem with rfl | hmem
      · rfl
      · obtain ⟨timestamp, latency, rfl⟩ := hrest e hmem
        rfl

theorem foldl_observe_of_silent {log : BatchLog} : ∀ {events : List LatencyEvent},
    (∀ e ∈ events, observe log e = log) → events.foldl observe log = log
  | [], _ => rfl
  | e :: events, h => by
    rw [List.foldl_cons, h e List.mem_cons_self]
    exact foldl_observe_of_silent fun e' he' => h e' (List.mem_cons_of_mem e he')

/-- Neither is anything it does with a whole burst. -/
theorem observe_processBurst (env : LatencyEnv) (st : LatencyState) (inp : LatencyInput)
    (bufs : List Mbuf) (log : BatchLog) :
    ∀ e ∈ (processBurst env st inp bufs).2, observe log e = log :=
  trace_forall (fun _ => True) (fun e => observe log e = log) (fun _ _ _ _ => trivial)
    (fun st b _ _ => observe_reply _ _ _ _ log st b) trivial
    (along_of_forall (fun _ _ => trivial) bufs _)

/-! ## The invariant -/

/-- What holds between two steps: the counter is right, no packet has two replies, a wait belongs
to a batch, and a batch is over at the head of the outer loop. -/
structure BatchInv (env : LatencyEnv) (s : LatencyState × BatchLog) : Prop where
  counter : 0 < s.2.number → s.1.pc ≠ .aborted →
    s.1.nbTx.toNat + s.2.replied.length = s.2.accepted
  nodup : s.2.replied.Nodup
  bound : ∀ i ∈ s.2.replied, i < s.2.accepted
  polling : s.1.pc = .poll → 0 < s.2.number
  ended : s.1.pc = .top → s.1.running = true → 0 < s.2.number →
    s.1.nbTx = 0 ∨ ∃ waited, s.2.lost = some waited ∧ waited > env.hz

theorem batchInv_init (env : LatencyEnv) (nbTx : UInt32) :
    BatchInv env (latencyInit env.cntx nbTx, BatchLog.empty) where
  counter := fun h => absurd h (Nat.lt_irrefl 0)
  nodup := List.nodup_nil
  bound := fun i hi => by simp [BatchLog.empty] at hi
  polling := by
    intro h
    simp only [latencyInit] at h
    split at h
    · cases h
    · split at h
      · cases h
      · split at h <;> cases h
  ended := fun _ _ h => absurd h (Nat.lt_irrefl 0)

/-- As many replies as packets at most. -/
theorem length_le_of_nodup_bound {l : List Nat} {n : Nat} (hn : l.Nodup) (hb : ∀ i ∈ l, i < n) :
    l.length ≤ n := by
  have hsub : l ⊆ List.range n := fun i hi => List.mem_range.mpr (hb i hi)
  simpa using (List.subperm_of_subset hn hsub).length_le

/-- In a state between two steps, a burst that is processed counts no more frames than are
outstanding. -/
theorem counted_le_outstanding {env : LatencyEnv} {s : LatencyState × BatchLog}
    {inp : LatencyInput} (h : BatchInv env s) (hpc : s.1.pc = .poll) (hrun : stillRunning s.1 inp)
    (hto : ¬ timedOut env s.1 inp) (hG : OnlyCurrentReplies env s inp) :
    ((arrivals inp).map Arrival.buf).countP (countsAsReply env.cntx) ≤ s.1.nbTx.toNat := by
  obtain ⟨hiff, hnodup, hbound⟩ := (hG hpc hrun).2 hto
  have hlen := length_le_of_nodup_bound hnodup (by
    intro i hi
    rcases List.mem_append.mp hi with hi | hi
    · exact h.bound i hi
    · exact hbound i hi)
  have hcounter := h.counter (h.polling hpc) (by rw [hpc]; decide)
  rw [List.length_append, length_repliesTo hiff] at hlen
  omega

/-- The state after a burst that did not crash the client. -/
theorem processBurst_spec {env : LatencyEnv} {st : LatencyState} {inp : LatencyInput}
    {bufs : List Mbuf} (hcount : bufs.countP (countsAsReply env.cntx) ≤ st.nbTx.toNat) :
    (∀ v, .countDown v ∈ (processBurst env st inp bufs).2 → v ≠ 0) ∧
    ((processBurst env st inp bufs).1.pc ≠ .aborted →
      (processBurst env st inp bufs).1.nbTx.toNat + bufs.countP (countsAsReply env.cntx)
        = st.nbTx.toNat) ∧
    ((processBurst env st inp bufs).1.pc = .top → (processBurst env st inp bufs).1.running = true →
      (processBurst env st inp bufs).1.nbTx = 0) := by
  obtain ⟨hdown, hnb⟩ := replies_count env.hz env.cntx env.hdrSizeDelta inp.respRecvTime bufs
    { nbTx := st.nbTx, measurements := st.measurements, aborted := false } hcount
  refine ⟨hdown, fun hlive => hnb (processBurst_live hlive), fun htop hrun => ?_⟩
  simp only [processBurst] at htop hrun ⊢
  split at htop
  · cases htop
  · split at htop
    · cases htop
    · next hnot =>
      by_contra hne
      exact hnot ⟨UInt32.pos_iff_ne_zero.mpr hne, hrun⟩

/-- **Every step keeps the invariant**, as long as nothing is taken for a reply that is none. -/
theorem batchInv_step (env : LatencyEnv) (s : LatencyState × BatchLog) (inp : LatencyInput)
    (h : BatchInv env s) (hG : OnlyCurrentReplies env s inp) :
    BatchInv env (logged (latencyStep env) observe s inp).1 := by
  obtain ⟨st, log⟩ := s
  rcases latencyStep_cases env st inp with
    ⟨pc, running, he, -, -, hpc⟩ | ⟨-, -, bufs, he⟩ | ⟨hpc, hrun, pool, built, -, hbuilt, he⟩ |
    ⟨hpc, hrun, hto, he⟩ | ⟨hpc, hrun, hto, -, he⟩ | ⟨hpc, hrun, hto, he⟩
  · -- the client goes on as it was, or is stopped by a signal
    rw [logged, he]
    rcases hpc with ⟨rfl, rfl⟩ | ⟨rfl, hpc⟩
    · exact h
    · have hne : st.pc ≠ .aborted := by
        rcases hpc with ⟨hpc, -⟩ | ⟨hpc, -⟩ <;> rw [hpc] <;> decide
      refine ⟨fun hn _ => h.counter hn hne, h.nodup, h.bound, fun hpoll => ?_, fun _ hr => ?_⟩
      · rcases hpc with ⟨-, rfl⟩ | ⟨-, rfl⟩ <;> cases hpoll
      · cases hr
  · rw [logged, he]
    exact ⟨fun _ hab => absurd rfl hab, h.nodup, h.bound, (fun hpc => nomatch hpc),
      (fun hpc => nomatch hpc)⟩
  · -- a new batch: the counter starts at what the driver took
    rw [logged, he]
    have htake : (built.take (txBurst inp.willing env.cntx.batch.toNat)).length
        = txBurst inp.willing env.cntx.batch.toNat := by
      rw [List.length_take, length_buildBatch hbuilt]
      exact Nat.min_eq_left (txBurst_le _ _)
    have hnat : (UInt32.ofNat (txBurst inp.willing env.cntx.batch.toNat)).toNat
        = txBurst inp.willing env.cntx.batch.toNat := by
      have hlt := env.cntx.batch.toNat_lt
      have hle := txBurst_le inp.willing env.cntx.batch.toNat
      exact UInt32.toNat_ofNat_of_lt' (by unfold UInt32.size; omega)
    refine ⟨fun _ _ => ?_, List.nodup_nil, fun i hi => by simp [observe] at hi,
      fun _ => Nat.succ_pos _, fun hpc => nomatch hpc⟩
    simp only [List.foldl_cons, List.foldl_nil, observe, List.length_nil, Nat.add_zero, hnat, htake]
  · -- the batch is given up; nothing of it was in the burst that is dropped
    rw [logged, he]
    have hnone := (hG hpc hrun).1 hto
    have hlog : [.rx (arrivals inp), .lost (inp.pollTime - st.startSinceSent)].foldl observe log
        = { log with lost := some (inp.pollTime - st.startSinceSent) } := by
      have hnone' : repliesTo log.number (arrivals inp) = [] := hnone
      simp only [List.foldl_cons, List.foldl_nil, observe, hnone', List.append_nil]
    simp only [hlog]
    exact ⟨fun hn _ => h.counter hn (by rw [hpc]; decide), h.nodup, h.bound,
      (fun hpoll => nomatch hpoll), fun _ _ _ => Or.inr ⟨_, rfl, hto⟩⟩
  · rw [logged, he]
    have hlog : [LatencyEvent.rx []].foldl observe log = log := by
      simp only [List.foldl_cons, List.foldl_nil, observe, repliesTo, List.filterMap_nil,
        List.append_nil]
    simp only [hlog]
    exact h
  · -- a burst of replies, all of them to the current batch
    obtain ⟨hiff, hnodup, hbound⟩ := (hG hpc hrun).2 hto
    obtain ⟨-, hnb, htop⟩ := processBurst_spec (counted_le_outstanding h hpc hrun hto hG)
    have hcounter := h.counter (h.polling hpc) (by rw [hpc]; decide)
    rw [logged, he]
    simp only [List.foldl_cons, foldl_observe_of_silent (observe_processBurst _ _ _ _ _), observe]
    refine ⟨fun _ hlive => ?_, hnodup, fun i hi => ?_, fun _ => h.polling hpc,
      fun hpc' hr _ => Or.inl (htop hpc' hr)⟩
    · have hleft := hnb hlive
      simp only [List.length_append, length_repliesTo hiff] at hleft hcounter ⊢
      omega
    · rcases List.mem_append.mp hi with hi | hi
      · exact h.bound i hi
      · exact hbound i hi

/-- The counter is never taken below zero. -/
theorem countDown_step (env : LatencyEnv) (s : LatencyState × BatchLog) (inp : LatencyInput)
    (h : BatchInv env s) (hG : OnlyCurrentReplies env s inp) :
    ∀ e ∈ (logged (latencyStep env) observe s inp).2, ∀ v, e = .countDown v → v ≠ 0 := by
  rintro e hmem v rfl
  rcases mem_latencyStep hmem with ⟨_, he⟩ | ⟨-, -, _, he⟩ | ⟨_, he⟩ | ⟨_, he⟩ |
    ⟨hpc, hrun, hto, hburst⟩
  · cases he
  · cases he
  · cases he
  · cases he
  · exact (processBurst_spec (counted_le_outstanding h hpc hrun hto hG)).1 v hburst

/-- A batch is sent from the head of the outer loop only, and while the client runs. -/
theorem pc_of_send {env : LatencyEnv} {st : LatencyState} {inp : LatencyInput} {taken : List Mbuf}
    (h : .tx taken ∈ (latencyStep env st inp).2) : st.pc = .top ∧ st.running = true := by
  rcases mem_latencyStep h with ⟨_, he⟩ | ⟨hpc, hrun, -⟩ | ⟨_, he⟩ | ⟨_, he⟩ | ⟨-, -, -, hburst⟩
  · cases he
  · exact ⟨hpc, hrun.1⟩
  · cases he
  · cases he
  · -- a send would have started a new page of the log
    have hsilent := observe_processBurst env st inp _ BatchLog.empty _ hburst
    exact absurd (congrArg BatchLog.number hsilent) Nat.one_ne_zero

/--
**Batch discipline.** In every run in which nothing is taken for a reply to the current batch that
is none, the counter `nb_tx` is, between two steps, the number of packets of the current batch
that the driver took less the number of replies received; it is never taken below zero; and a
batch is sent only when all replies to the one before were received or a wait of more than a
second was declared lost.
-/
theorem latency_batch_discipline (env : LatencyEnv) (nbTx : UInt32) (inputs : List LatencyInput)
    (h : Along (logged (latencyStep env) observe) (OnlyCurrentReplies env)
      (latencyInit env.cntx nbTx, BatchLog.empty) inputs) :
    let s := final (logged (latencyStep env) observe) (latencyInit env.cntx nbTx, BatchLog.empty)
      inputs
    (0 < s.2.number → s.1.pc ≠ .aborted →
      s.1.nbTx.toNat + s.2.replied.length = s.2.accepted) ∧
    (∀ v, .countDown v ∈ trace (logged (latencyStep env) observe)
        (latencyInit env.cntx nbTx, BatchLog.empty) inputs → v ≠ 0) ∧
    (∀ inp taken, .tx taken ∈ (latencyStep env s.1 inp).2 → 0 < s.2.number →
      s.2.replied.length = s.2.accepted ∨
        ∃ waited, s.2.lost = some waited ∧ waited > env.hz) := by
  intro s
  have hinv : BatchInv env s := final_invariant (BatchInv env) (batchInv_step env)
    (batchInv_init env nbTx) h
  refine ⟨hinv.counter, fun v hv => ?_, fun inp taken hsend hn => ?_⟩
  · exact trace_forall (BatchInv env) (fun e => ∀ v, e = .countDown v → v ≠ 0) (batchInv_step env)
      (countDown_step env) (batchInv_init env nbTx) h _ hv v rfl
  · obtain ⟨hpc, hrun⟩ := pc_of_send hsend
    rcases hinv.ended hpc hrun hn with hzero | hlost
    · have hcounter := hinv.counter hn (by rw [hpc]; decide)
      rw [hzero] at hcounter
      exact Or.inl (by simpa using hcounter)
    · exact Or.inr hlost

/-- An IPv4 frame for the sample client: the reply to packet `i` of batch `batch`. -/
def sampleReply (batch i : Nat) : Arrival where
  buf :=
    { id := 100 + i, data := fun a => if a < 6 then 2 else if a = 12 then 8 else 0
      dataLen := 60, l2Len := 0, l3Len := 0, olFlags := 0 }
  origin := some (batch, i)

/-- A batch of two packets and its two replies, the second first. -/
def sampleExchange : List LatencyInput :=
  [sampleLatencyInput 2 [] 0, sampleLatencyInput 2 [sampleReply 1 1, sampleReply 1 0] 500]

/-- After the exchange nothing is outstanding. -/
theorem latency_batch_discipline_exchange :
    let s := final (logged (latencyStep sampleLatencyEnv) observe)
      (latencyInit sampleLatencyEnv.cntx 0, BatchLog.empty) sampleExchange
    s.2.number = 1 ∧ s.1.pc = .top ∧ s.1.nbTx.toNat + s.2.replied.length = s.2.accepted := by
  refine ⟨rfl, rfl, ?_⟩
  refine (latency_batch_discipline sampleLatencyEnv 0 sampleExchange ⟨?_, ?_, trivial⟩).1
    (by decide) (by decide)
  · intro hpc
    cases hpc
  · intro _ _
    have hsoon : ¬ (500 : UInt64) - 0 > 1000 := by decide
    refine ⟨fun hto => absurd hto hsoon, fun _ => ⟨?_, ?_, ?_⟩⟩
    · intro a ha
      have ha' : a ∈ [sampleReply 1 1, sampleReply 1 0] := ha
      rcases List.mem_pair.mp ha' with rfl | rfl
      · exact ⟨fun _ => ⟨1, rfl⟩, fun _ => by decide⟩
      · exact ⟨fun _ => ⟨0, rfl⟩, fun _ => by decide⟩
    · change [1, 0].Nodup
      decide
    · change ∀ i ∈ [1, 0], i < 2
      decide

/-- The first batch is given up after two seconds. Its replies arrive together with one reply to
the second batch. -/
def lateReplies : List LatencyInput :=
  [sampleLatencyInput 2 [] 0, sampleLatencyInput 2 [] 2000, sampleLatencyInput 2 [] 0,
    sampleLatencyInput 2 [sampleReply 1 0, sampleReply 1 1, sampleReply 2 0] 500]

/-- The late replies are counted too: one taken off zero, and four billion packets outstanding
instead of one. -/
theorem latency_counter_wraps :
    let s := final (logged (latencyStep sampleLatencyEnv) observe)
      (latencyInit sampleLatencyEnv.cntx 0, BatchLog.empty) lateReplies
    s.2.number = 2 ∧ s.1.pc = .poll ∧ s.2.accepted = 2 ∧ s.2.replied = [0] ∧
      s.1.nbTx = 4294967295 ∧ s.1.nbTx.toNat + s.2.replied.length ≠ s.2.accepted ∧
      .countDown 0 ∈ trace (logged (latencyStep sampleLatencyEnv) observe)
        (latencyInit sampleLatencyEnv.cntx 0, BatchLog.empty) lateReplies := by
  refine ⟨rfl, by decide, rfl, rfl, by decide, by decide, ?_⟩
  exact List.mem_of_getElem? (i := 13) rfl

end DpdkEcho
