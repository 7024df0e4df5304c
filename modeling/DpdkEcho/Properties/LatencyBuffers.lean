import Mathlib.Data.List.Perm.Basic
import DpdkEcho.Properties.Frames
import DpdkEcho.Properties.LatencySteps

/-!
# What becomes of the latency client's buffers

A step is a leak when the driver does not take the whole batch (the rest is not freed, and the
array is overwritten by the next receive call) or when a burst arrives together with the timeout
(the loop is left before anything is processed). There is no other way to lose a buffer:
`balanced_step_iff`, and for whole runs `latency_conserves_buffers_iff`.
-/

namespace DpdkEcho

open Infra

/-! ## The ledger -/

/-- The identities of the buffers an event list obtained. -/
def acquired (events : List LatencyEvent) : List Nat :=
  events.flatMap fun
    | .alloc bufs => bufs.map Mbuf.id
    | .rx arrivals => arrivals.map fun a => a.buf.id
    | _ => []

/-- The identities of the buffers it gave away: to the driver or back to their pool. -/
def released (events : List LatencyEvent) : List Nat :=
  events.flatMap fun
    | .tx taken => taken.map Mbuf.id
    | .free buf => [buf.id]
    | _ => []

/-- Every buffer was given away as often as it was obtained. -/
def Balanced (events : List LatencyEvent) : Prop := (acquired events).Perm (released events)

@[simp] theorem acquired_append (e f : List LatencyEvent) :
    acquired (e ++ f) = acquired e ++ acquired f := List.flatMap_append

@[simp] theorem released_append (e f : List LatencyEvent) :
    released (e ++ f) = released e ++ released f := List.flatMap_append

theorem Balanced.append {e f : List LatencyEvent} (he : Balanced e) :
    Balanced (e ++ f) ↔ Balanced f := by
  unfold Balanced at he ⊢
  rw [acquired_append, released_append]
  constructor
  · intro h
    exact (List.perm_append_left_iff _).mp (((he.symm.append_right (acquired f))).trans h)
  · exact fun h => he.append h

/-! ## Processing a burst -/

/-- Events that neither obtain nor give away a buffer. -/
theorem ledger_silent {events : List LatencyEvent}
    (h : ∀ e ∈ events, (∃ args, e = .arp args) ∨
      ∃ timestamp latency, e = .measure timestamp latency) :
    acquired events = [] ∧ released events = [] := by
  constructor
  · refine List.flatMap_eq_nil_iff.mpr fun e he => ?_
    rcases h e he with ⟨args, rfl⟩ | ⟨timestamp, latency, rfl⟩ <;> rfl
  · refine List.flatMap_eq_nil_iff.mpr fun e he => ?_
    rcases h e he with ⟨args, rfl⟩ | ⟨timestamp, latency, rfl⟩ <;> rfl

/-- Processing a burst obtains nothing and frees every packet of it, unless an assertion fails. -/
theorem replies_ledger (hz : UInt64) (cntx : Context) (delta : UInt16) (resp : UInt64) :
    ∀ (bufs : List Mbuf) (st : ReplyState),
      acquired (trace (replyPacket hz cntx delta resp) st bufs) = [] ∧
      ((final (replyPacket hz cntx delta resp) st bufs).aborted = false →
        released (trace (replyPacket hz cntx delta resp) st bufs) = bufs.map Mbuf.id)
  | [], _ => ⟨rfl, fun _ => rfl⟩
  | b :: bs, st => by
    obtain ⟨ih1, ih2⟩ := replies_ledger hz cntx delta resp bs
      (replyPacket hz cntx delta resp st b).1
    rw [trace_cons, acquired_append, released_append, ih1, final_cons, List.append_nil,
      List.map_cons]
    rcases replyPacket_cases st b with ⟨hab, he⟩ | ⟨-, -, args, he⟩ | ⟨-, -, -, rest, he, hrest⟩
    · -- after a failed assertion there is no end of the burst to speak of
      refine ⟨by rw [he]; rfl, fun hfin => ?_⟩
      rw [he, (replyPacket_aborted hab bs).1, hab] at hfin
      cases hfin
    · obtain ⟨ha, hr⟩ := @ledger_silent (args.map .arp) fun e hmem => by
        obtain ⟨a, -, rfl⟩ := List.mem_map.mp hmem
        exact Or.inl ⟨a, rfl⟩
      refine ⟨by rw [he, acquired_append, ha]; rfl, fun hfin => ?_⟩
      rw [ih2 hfin, he, released_append, hr]
      rfl
    · obtain ⟨ha, hr⟩ := ledger_silent fun e hmem => Or.inr (hrest e hmem)
      rw [he, show LatencyEvent.countDown st.nbTx :: LatencyEvent.free b :: rest
        = [.countDown st.nbTx, .free b] ++ rest from rfl, acquired_append, released_append, ha, hr]
      refine ⟨rfl, fun hfin => ?_⟩
      rw [ih2 hfin]
      rfl

/-! ## Building a batch -/

/-- What every successful call keeps, a successful `mapM` keeps for the whole list. -/
theorem map_eq_of_mapM {α β γ : Type} {f : α → Option β} {g : β → γ} {k : α → γ}
    (hf : ∀ a b, f a = some b → g b = k a) :
    ∀ {l : List α} {bs : List β}, l.mapM f = some bs → bs.map g = l.map k
  | [], bs, h => by
    rw [← Option.some.inj h]
    rfl
  | a :: l, bs, h => by
    rw [List.mapM_cons] at h
    obtain ⟨b, hb, h⟩ := Option.bind_eq_some_iff.mp h
    obtain ⟨bs', hbs, h⟩ := Option.bind_eq_some_iff.mp h
    rw [← Option.some.inj h, List.map_cons, List.map_cons, hf a b hb, map_eq_of_mapM hf hbs]

/-- The buffers of a finished batch are the ones that were allocated. -/
theorem buildBatch_ids {cksums : Cksums} {cntx : Context} {serverEth : EtherAddr}
    {pool : Nat → Nat × Mem} {buildTime : Nat → UInt64} {built : List Mbuf}
    (h : buildBatch cksums cntx serverEth pool buildTime = some built) :
    built.map Mbuf.id = (allocBulk cntx pool).map Mbuf.id := by
  have hid : ∀ i b, latencyPacket cksums cntx serverEth (buildTime i)
      (Mbuf.alloc (pool i).1 (pool i).2) = some b → b.id = (pool i).1 := by
    intro i b hb
    rw [latencyPacket_eq] at hb
    simp only [] at hb
    split at hb
    · rw [← Option.some.inj hb]
    · cases hb
  rw [map_eq_of_mapM hid h, allocBulk, List.map_map]
  rfl

theorem length_allocBulk (cntx : Context) (pool : Nat → Nat × Mem) :
    (allocBulk cntx pool).length = cntx.batch.toNat := by
  simp [allocBulk]

theorem length_buildBatch {cksums : Cksums} {cntx : Context} {serverEth : EtherAddr}
    {pool : Nat → Nat × Mem} {buildTime : Nat → UInt64} {built : List Mbuf}
    (h : buildBatch cksums cntx serverEth pool buildTime = some built) :
    built.length = cntx.batch.toNat := by
  have hlen := congrArg List.length (buildBatch_ids h)
  rwa [List.length_map, List.length_map, length_allocBulk] at hlen

/-! ## One step -/

/-- The step loses no buffer: if it sends a batch the driver takes all of it, and if it gives up
a batch nothing arrives at that moment. -/
def KeepsBuffers (env : LatencyEnv) (st : LatencyState) (inp : LatencyInput) : Prop :=
  (st.pc = .top → stillRunning st inp → batchReady env inp →
    env.cntx.batch.toNat ≤ inp.willing) ∧
  (st.pc = .poll → stillRunning st inp → timedOut env st inp → arrivals inp = [])

theorem keepsBuffers_of_polling {env : LatencyEnv} {st : LatencyState} {inp : LatencyInput}
    (hpc : st.pc = .poll) (hto : ¬ timedOut env st inp) : KeepsBuffers env st inp :=
  ⟨fun htop => absurd (hpc.symm.trans htop) (by decide), fun _ _ h => absurd h hto⟩

/-- A step that crashes has nothing to do with the two ways of losing a buffer. -/
theorem keepsBuffers_of_aborted {env : LatencyEnv} {st : LatencyState} {inp : LatencyInput}
    (hab : (latencyStep env st inp).1.pc = .aborted) : KeepsBuffers env st inp := by
  rcases latencyStep_cases env st inp with
    ⟨pc, running, -, hnosend, hnopoll, -⟩ | ⟨hpc, hnot, -⟩ | ⟨-, -, pool, built, -, -, he⟩ |
    ⟨-, -, -, he⟩ | ⟨hpc, -, hto, -⟩ | ⟨hpc, -, hto, -⟩
  · exact ⟨fun hpc hrun hready => absurd ⟨hrun, hready⟩ (hnosend hpc),
      fun hpc hrun => absurd hrun (hnopoll hpc)⟩
  · exact ⟨fun _ _ h => absurd h hnot, fun hpoll => absurd (hpc.symm.trans hpoll) (by decide)⟩
  · rw [he] at hab; cases hab
  · rw [he] at hab; cases hab
  · exact keepsBuffers_of_polling hpc hto
  · exact keepsBuffers_of_polling hpc hto

/-- **What a step does to the ledger.** -/
theorem balanced_step_iff {env : LatencyEnv} {st : LatencyState} {inp : LatencyInput}
    (hlive : (latencyStep env st inp).1.pc ≠ .aborted) :
    Balanced (latencyStep env st inp).2 ↔ KeepsBuffers env st inp := by
  rcases latencyStep_cases env st inp with
    ⟨pc, running, he, hnosend, hnopoll, -⟩ | ⟨-, -, bufs, he⟩ |
    ⟨hpc, hrun, pool, built, hpool, hbuilt, he⟩ | ⟨hpc, hrun, hto, he⟩ |
    ⟨hpc, hrun, hto, -, he⟩ | ⟨hpc, hrun, hto, he⟩
  · rw [he]
    refine iff_of_true (List.Perm.refl []) ⟨?_, ?_⟩
    · intro hpc hrun hready
      exact absurd ⟨hrun, hready⟩ (hnosend hpc)
    · intro hpc hrun
      exact absurd hrun (hnopoll hpc)
  · rw [he] at hlive
    exact absurd rfl hlive
  · -- a send: the ledger is even when the driver took as many as there were
    have hids := buildBatch_ids hbuilt
    have hlen := length_buildBatch hbuilt
    have hacq : acquired (latencyStep env st inp).2 = built.map Mbuf.id := by
      rw [he, hids]
      simp [acquired]
    have hrel : released (latencyStep env st inp).2
        = (built.take (txBurst inp.willing env.cntx.batch.toNat)).map Mbuf.id := by
      rw [he]
      simp [released]
    rw [Balanced, hacq, hrel]
    constructor
    · intro hperm
      have hlen' := hperm.length_eq
      rw [List.length_map, List.length_map, List.length_take, hlen, txBurst] at hlen'
      refine ⟨fun _ _ _ => by omega, fun hpoll => ?_⟩
      rw [hpc] at hpoll
      cases hpoll
    · rintro ⟨htake, -⟩
      have hle := htake hpc hrun ⟨pool, built, hpool, hbuilt⟩
      rw [List.take_of_length_le (by rw [hlen, txBurst]; omega)]
  · -- a timeout: nothing is freed, so the ledger is even when nothing was read
    rw [he]
    have hacq : acquired [.rx (arrivals inp), .lost (inp.pollTime - st.startSinceSent)]
        = (arrivals inp).map fun a => a.buf.id := by simp [acquired]
    rw [Balanced, hacq, show released [.rx (arrivals inp), .lost (inp.pollTime - st.startSinceSent)]
      = [] from rfl, List.perm_nil, List.map_eq_nil_iff]
    constructor
    · intro hnil
      exact ⟨fun htop => absurd (hpc.symm.trans htop) (by decide), fun _ _ _ => hnil⟩
    · intro hkeep
      exact hkeep.2 hpc hrun hto
  · rw [he]
    exact iff_of_true (List.Perm.refl []) (keepsBuffers_of_polling hpc hto)
  · refine iff_of_true ?_ (keepsBuffers_of_polling hpc hto)
    rw [he] at hlive ⊢
    obtain ⟨hacq, hrel⟩ := replies_ledger env.hz env.cntx env.hdrSizeDelta inp.respRecvTime
      ((arrivals inp).map Arrival.buf)
      { nbTx := st.nbTx, measurements := st.measurements, aborted := false }
    have hfin := hrel (processBurst_live hlive)
    rw [Balanced, show ∀ events, LatencyEvent.rx (arrivals inp) :: events
      = [.rx (arrivals inp)] ++ events from fun _ => rfl, acquired_append, released_append]
    simp only [processBurst]
    rw [hacq, hfin, List.map_map]
    simp [acquired, released, Function.comp_def]

/-! ## Runs -/

section
variable {env : LatencyEnv}

/-- A client that has crashed stays so. -/
theorem final_aborted {st : LatencyState} (h : st.pc = .aborted) (inputs : List LatencyInput) :
    (final (latencyStep env) st inputs).pc = .aborted := by
  induction inputs generalizing st with
  | nil => exact h
  | cons inp inputs ih =>
    rw [final_cons, latencyStep_ended (Or.inr h)]
    exact ih h

theorem along_aborted {st : LatencyState} (h : st.pc = .aborted) (inputs : List LatencyInput) :
    Along (latencyStep env) (KeepsBuffers env) st inputs := by
  induction inputs generalizing st with
  | nil => trivial
  | cons inp inputs ih =>
    refine ⟨⟨fun hpc => ?_, fun hpc => ?_⟩, ?_⟩
    · rw [h] at hpc; cases hpc
    · rw [h] at hpc; cases hpc
    · rw [latencyStep_ended (Or.inr h)]
      exact ih h

/-- A run whose steps lose nothing has a balanced ledger. -/
theorem balanced_of_along : ∀ {inputs : List LatencyInput} {st : LatencyState},
    Along (latencyStep env) (KeepsBuffers env) st inputs →
    (final (latencyStep env) st inputs).pc ≠ .aborted →
    Balanced (trace (latencyStep env) st inputs)
  | [], _, _, _ => List.Perm.refl []
  | inp :: inputs, st, h, hlive => by
    have hstep : (latencyStep env st inp).1.pc ≠ .aborted :=
      fun hab => hlive (final_aborted hab inputs)
    rw [trace_cons, ((balanced_step_iff hstep).mpr h.1).append]
    exact balanced_of_along h.2 hlive

/-- A run whose ledger is balanced all the way has steps that lose nothing. -/
theorem along_of_balanced : ∀ {inputs : List LatencyInput} {st : LatencyState},
    (∀ pre, pre <+: inputs → (final (latencyStep env) st pre).pc ≠ .aborted →
      Balanced (trace (latencyStep env) st pre)) →
    Along (latencyStep env) (KeepsBuffers env) st inputs
  | [], _, _ => trivial
  | inp :: inputs, st, h => by
    by_cases hab : (latencyStep env st inp).1.pc = .aborted
    · exact ⟨keepsBuffers_of_aborted hab, along_aborted hab inputs⟩
    · have hone : Balanced (latencyStep env st inp).2 := by
        have hpre := h [inp] ⟨inputs, rfl⟩ hab
        rwa [trace_cons, trace_nil, List.append_nil] at hpre
      refine ⟨(balanced_step_iff hab).mp hone, along_of_balanced fun pre hpre hlive => ?_⟩
      have hlong := h (inp :: pre) ((List.prefix_cons_inj inp).mpr hpre) hlive
      rwa [trace_cons, hone.append] at hlong

end

/--
**Conservation of the latency client's buffers.** In a run, every buffer obtained so far has been
handed to the driver or freed, each as often as it was obtained, whenever the client is about to
overwrite its array or to stop — exactly when at every send the driver takes the whole batch and
at every timeout no frame arrives.
-/
theorem latency_conserves_buffers_iff (env : LatencyEnv) (nbTx : UInt32)
    (inputs : List LatencyInput) :
    (∀ pre, pre <+: inputs →
      (final (latencyStep env) (latencyInit env.cntx nbTx) pre).pc ≠ .aborted →
      Balanced (trace (latencyStep env) (latencyInit env.cntx nbTx) pre)) ↔
    Along (latencyStep env) (KeepsBuffers env) (latencyInit env.cntx nbTx) inputs :=
  ⟨along_of_balanced, fun h _ hpre hlive => balanced_of_along (h.of_prefix hpre) hlive⟩

/-- A latency client that sends batches of two packets to 1.1.1.1. -/
def sampleLatencyEnv : LatencyEnv where
  hz := 1000
  cksums := ⟨fun _ _ => 0, fun _ _ _ => 0⟩
  cntx :=
    { workerId := 0, defaultQid := 0, myEth := ⟨List.replicate 6 2, rfl⟩, srcIp := 0x0A000001
      srcPort := 3000, countQueues := 1, useVlan := false, bidi := true, doArp := true
      delayCycles := 0, managedQueues := [], duration := 0, dstIps := [0x01010101], dstPort := 8080
      payloadLength := 64, countFlow := 1, basePortNumber := 8080, rateLimit := false, rate := 0
      batch := 2 }
  serverEth := ⟨List.replicate 6 3, rfl⟩
  hdrSizeDelta := 0

/-- A step with two fresh buffers, a driver that takes `willing` packets, and `waiting` in the
receive queue. -/
def sampleLatencyInput (willing : Nat) (waiting : List Arrival) (pollTime : UInt64) :
    LatencyInput where
  interrupt := false
  interruptLate := false
  pool := some fun i => (i, fun _ => 0)
  buildTime := fun _ => 0
  willing := willing
  waiting := waiting
  pollTime := pollTime
  respRecvTime := 0
  startTime := 0

/-- The driver takes one packet of two: the other is neither sent nor freed when the client
starts to receive into the array. -/
theorem latency_leaks_unsent :
    (final (latencyStep sampleLatencyEnv) (latencyInit sampleLatencyEnv.cntx 0)
      [sampleLatencyInput 1 [] 0]).pc = .poll ∧
    ¬ Balanced (trace (latencyStep sampleLatencyEnv) (latencyInit sampleLatencyEnv.cntx 0)
      [sampleLatencyInput 1 [] 0]) := by
  refine ⟨rfl, fun h => ?_⟩
  have hlen := h.length_eq
  exact absurd hlen (by decide)

end DpdkEcho
