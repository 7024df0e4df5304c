import DpdkEcho.Properties.BatchDiscipline

/-!
# The measurements of the latency client

A latency is the elapsed cycles times `10^9`, divided by the timer frequency, in 64 bits. The
product has room for `18446744073` cycles. The wait for the replies starts over with every burst
that is received, so nothing in the client keeps a reply from being older than that.

* `latencyNs_exact_iff`: when a single latency is right
* `latencyStep_records`: what a step records, and from which frames
* `latency_exact`: the measurements of a run
-/

namespace DpdkEcho

open Infra

/-! ## The arithmetic -/

/-- The cycles that can be multiplied by `10^9` in 64 bits. -/
def maxLatencyCycles : Nat := 18446744073

theorem mod_div_eq_iff {a h : Nat} (hpos : 1 ≤ h) (hle : h ≤ 2 ^ 64) :
    a % 2 ^ 64 / h = a / h ↔ a < 2 ^ 64 := by
  constructor
  · intro heq
    by_contra hge
    -- what wraps around loses at least one unit of the quotient
    have hstep : a % 2 ^ 64 + h ≤ a := by omega
    have hlt : a % 2 ^ 64 / h + 1 ≤ a / h := by
      rw [← Nat.add_div_right _ hpos]
      exact Nat.div_le_div_right hstep
    omega
  · intro hlt
    rw [Nat.mod_eq_of_lt hlt]

section
variable {hz respRecvTime timestamp : UInt64}

theorem latencyNs_toNat (ht : timestamp ≤ respRecvTime) :
    (latencyNs hz respRecvTime timestamp).toNat
      = (respRecvTime.toNat - timestamp.toNat) * 10 ^ 9 % 2 ^ 64 / hz.toNat := by
  have hk : (1000 : UInt64).toNat = 1000 := rfl
  have hmul : (respRecvTime.toNat - timestamp.toNat) * 10 ^ 9
      = (respRecvTime.toNat - timestamp.toNat) * 1000 * 1000 * 1000 := by omega
  rw [latencyNs, UInt64.toNat_div, UInt64.toNat_mul, UInt64.toNat_mul, UInt64.toNat_mul, hk,
    UInt64.toNat_sub_of_le _ _ ht, hmul]
  simp only [Nat.mod_mul_mod]

/-- **A latency is right exactly when the product does not wrap around.** -/
theorem latencyNs_exact_iff (hhz : 1 ≤ hz.toNat) (ht : timestamp ≤ respRecvTime) :
    (latencyNs hz respRecvTime timestamp).toNat
        = (respRecvTime.toNat - timestamp.toNat) * 10 ^ 9 / hz.toNat ↔
      respRecvTime.toNat - timestamp.toNat ≤ maxLatencyCycles := by
  rw [latencyNs_toNat ht, mod_div_eq_iff hhz hz.toNat_lt.le, maxLatencyCycles]
  omega

end

/-! ## What is recorded -/

/-- The timestamps and latencies a step records. -/
def recorded (events : List LatencyEvent) : List (UInt64 × UInt64) :=
  events.filterMap fun | .measure timestamp latency => some (timestamp, latency) | _ => none

@[simp] theorem recorded_append (e f : List LatencyEvent) :
    recorded (e ++ f) = recorded e ++ recorded f := List.filterMap_append

/-- The frame is measured. -/
def isMeasured (cntx : Context) (buf : Mbuf) : Bool :=
  countsAsReply cntx buf && load16 buf.data ethEtherType == etherTypeIpv4

/-- The timestamp in a frame. -/
def frameTimestamp (delta : UInt16) (buf : Mbuf) : UInt64 :=
  load64 buf.data (etherHdrLen + ipv4HdrLen + udpHdrLen + delta.toNat)

section
variable {hz : UInt64} {cntx : Context} {delta : UInt16} {resp : UInt64}

/-- What is recorded comes from one of the frames. -/
def RecordsOf (hz : UInt64) (cntx : Context) (delta : UInt16) (resp : UInt64) (bufs : List Mbuf)
    (p : UInt64 × UInt64) : Prop :=
  ∃ buf ∈ bufs, isMeasured cntx buf = true ∧
    p = (frameTimestamp delta buf, latencyNs hz resp (frameTimestamp delta buf))

theorem replyPacket_records (st : ReplyState) (buf : Mbuf) :
    (replyPacket hz cntx delta resp st buf).1.measurements
      = st.measurements ++ (recorded (replyPacket hz cntx delta resp st buf).2).map Prod.snd ∧
    ∀ p ∈ recorded (replyPacket hz cntx delta resp st buf).2,
      RecordsOf hz cntx delta resp [buf] p := by
  have harp : ∀ args : List ArpSend, recorded (args.map .arp ++ [.free buf]) = [] := by
    intro args
    induction args with
    | nil => rfl
    | cons arg args ih => exact ih
  unfold replyPacket
  split
  · simp [recorded]
  · simp only []
    split
    · rw [harp]
      simp
    · next hvalid =>
      have hvalid' : countsAsReply cntx buf = true := not_not.mp hvalid
      split
      · simp [recorded]
      · next hip =>
        have hip' : load16 buf.data ethEtherType = etherTypeIpv4 := not_not.mp hip
        refine ⟨rfl, fun p hp => ⟨buf, List.mem_singleton_self buf, ?_, List.mem_singleton.mp hp⟩⟩
        simp [isMeasured, hvalid', hip']

/-- **The frames of a burst**, one after the other. -/
theorem replies_record : ∀ (bufs : List Mbuf) (st : ReplyState),
    (final (replyPacket hz cntx delta resp) st bufs).measurements = st.measurements
      ++ (recorded (trace (replyPacket hz cntx delta resp) st bufs)).map Prod.snd ∧
    ∀ p ∈ recorded (trace (replyPacket hz cntx delta resp) st bufs),
      RecordsOf hz cntx delta resp bufs p
  | [], st => by simp [recorded]
  | buf :: bufs, st => by
    obtain ⟨hfirst, hmem⟩ := @replyPacket_records hz cntx delta resp st buf
    obtain ⟨hrest, hmems⟩ := replies_record bufs (replyPacket hz cntx delta resp st buf).1
    rw [final_cons, trace_cons, recorded_append, List.map_append, hrest, hfirst, List.append_assoc]
    refine ⟨rfl, fun p hp => ?_⟩
    rcases List.mem_append.mp hp with hp | hp
    · obtain ⟨b, hb, h⟩ := hmem p hp
      rw [List.mem_singleton.mp hb] at h
      exact ⟨buf, List.mem_cons_self, h⟩
    · obtain ⟨b, hb, h⟩ := hmems p hp
      exact ⟨b, List.mem_cons_of_mem _ hb, h⟩

end

/-- The step processes what it receives: the wait did not time out. -/
def Processes (env : LatencyEnv) (st : LatencyState) (inp : LatencyInput) : Prop :=
  st.pc = .poll ∧ stillRunning st inp ∧ ¬ timedOut env st inp

/-- **What a step records.** It is added to the measurements, and comes from frames of a burst that
was received in time. -/
theorem latencyStep_records (env : LatencyEnv) (st : LatencyState) (inp : LatencyInput) :
    (latencyStep env st inp).1.measurements
      = st.measurements ++ (recorded (latencyStep env st inp).2).map Prod.snd ∧
    ∀ p ∈ recorded (latencyStep env st inp).2, Processes env st inp ∧
      RecordsOf env.hz env.cntx env.hdrSizeDelta inp.respRecvTime
        ((arrivals inp).map Arrival.buf) p := by
  rcases latencyStep_cases env st inp with
    ⟨pc, running, he, -⟩ | ⟨-, -, bufs, he⟩ | ⟨-, -, pool, built, -, -, he⟩ | ⟨-, -, -, he⟩ |
    ⟨-, -, -, -, he⟩ | ⟨hpc, hrun, hto, he⟩
  · simp [he, recorded]
  · simp [he, recorded]
  · simp [he, recorded]
  · simp [he, recorded]
  · simp [he, recorded]
  · obtain ⟨hfinal, hmem⟩ := @replies_record env.hz env.cntx env.hdrSizeDelta inp.respRecvTime
      ((arrivals inp).map Arrival.buf)
      { nbTx := st.nbTx, measurements := st.measurements, aborted := false }
    rw [he]
    exact ⟨hfinal, fun p hp => ⟨⟨hpc, hrun, hto⟩, hmem p hp⟩⟩

/-! ## The measurements of a run -/

/-- A step, together with the times at which the packets of each batch were built. -/
def timedStep (env : LatencyEnv) (s : LatencyState × List (Nat → UInt64)) (inp : LatencyInput) :
    (LatencyState × List (Nat → UInt64)) × List LatencyEvent :=
  let (st, events) := latencyStep env s.1 inp
  let sends := events.any fun | .tx _ => true | _ => false
  ((st, if sends then s.2 ++ [inp.buildTime] else s.2), events)

/-- The frames that are measured are replies. Each carries the time at which its packet was built,
and the timer has not gone back since then. Batches are counted from 1. -/
def CarriesBuildTime (env : LatencyEnv) (s : LatencyState × List (Nat → UInt64))
    (inp : LatencyInput) : Prop :=
  Processes env s.1 inp → ∀ a ∈ arrivals inp, isMeasured env.cntx a.buf = true →
    ∃ batch i buildTime, a.origin = some (batch + 1, i) ∧ s.2[batch]? = some buildTime ∧
      frameTimestamp env.hdrSizeDelta a.buf = buildTime i ∧ buildTime i ≤ inp.respRecvTime

/-- The frames that are measured are not older than what the product has room for. -/
def InTime (env : LatencyEnv) (s : LatencyState × List (Nat → UInt64)) (inp : LatencyInput) :
    Prop :=
  Processes env s.1 inp → ∀ a ∈ arrivals inp, isMeasured env.cntx a.buf = true →
    inp.respRecvTime.toNat - (frameTimestamp env.hdrSizeDelta a.buf).toNat ≤ maxLatencyCycles

/-- The latency is the elapsed time in nanoseconds, rounded down. -/
def ExactLatency (hz respRecvTime : UInt64) (p : UInt64 × UInt64) : Prop :=
  p.2.toNat = (respRecvTime.toNat - p.1.toNat) * 10 ^ 9 / hz.toNat

theorem timedStep_measurements (env : LatencyEnv) : ∀ (inps : List LatencyInput)
    (s : LatencyState × List (Nat → UInt64)),
    (final (timedStep env) s inps).1.measurements
      = s.1.measurements ++ (recorded (trace (timedStep env) s inps)).map Prod.snd
  | [], s => by simp [recorded]
  | inp :: inps, s => by
    have hstep : (timedStep env s inp).1.1.measurements
        = s.1.measurements ++ (recorded (timedStep env s inp).2).map Prod.snd :=
      (latencyStep_records env s.1 inp).1
    rw [final_cons, trace_cons, recorded_append, List.map_append,
      timedStep_measurements env inps (timedStep env s inp).1, hstep, List.append_assoc]

/-- **One step.** A frame that is measured was received after its packet was built, and its latency
is right exactly when it is in time. -/
theorem timedStep_exact_iff {env : LatencyEnv} (hhz : 1 ≤ env.hz.toNat)
    {s : LatencyState × List (Nat → UInt64)} {inp : LatencyInput} (h : CarriesBuildTime env s inp)
    {p : UInt64 × UInt64} (hp : p ∈ recorded (timedStep env s inp).2) :
    Processes env s.1 inp ∧ p.1 ≤ inp.respRecvTime ∧
    (ExactLatency env.hz inp.respRecvTime p ↔
      inp.respRecvTime.toNat - p.1.toNat ≤ maxLatencyCycles) ∧
    ∃ a ∈ arrivals inp, isMeasured env.cntx a.buf = true ∧
      p.1 = frameTimestamp env.hdrSizeDelta a.buf := by
  obtain ⟨hproc, buf, hbuf, hmeas, rfl⟩ := (latencyStep_records env s.1 inp).2 p hp
  obtain ⟨a, ha, rfl⟩ := List.mem_map.mp hbuf
  obtain ⟨batch, i, buildTime, -, -, hts, hle⟩ := h hproc a ha hmeas
  rw [← hts] at hle
  exact ⟨hproc, hle, latencyNs_exact_iff hhz hle, a, ha, hmeas, rfl⟩

/--
**The measurements of the latency client.** In every run in which the measured frames are replies
that carry the time at which their packets were built, every measurement is the elapsed time in
nanoseconds exactly when the reply is not older than `maxLatencyCycles`. So all of them are right
in a run in which no reply is older.
-/
theorem latency_exact (env : LatencyEnv) (hhz : 1 ≤ env.hz.toNat) (nbTx : UInt32)
    (inps : List LatencyInput)
    (h : Along (timedStep env) (CarriesBuildTime env) (latencyInit env.cntx nbTx, []) inps) :
    (final (timedStep env) (latencyInit env.cntx nbTx, []) inps).1.measurements
      = (recorded (trace (timedStep env) (latencyInit env.cntx nbTx, []) inps)).map Prod.snd ∧
    Along (timedStep env) (fun s inp => ∀ p ∈ recorded (timedStep env s inp).2,
      p.1 ≤ inp.respRecvTime ∧ (ExactLatency env.hz inp.respRecvTime p ↔
        inp.respRecvTime.toNat - p.1.toNat ≤ maxLatencyCycles))
      (latencyInit env.cntx nbTx, []) inps ∧
    (Along (timedStep env) (InTime env) (latencyInit env.cntx nbTx, []) inps →
      Along (timedStep env) (fun s inp => ∀ p ∈ recorded (timedStep env s inp).2,
        ExactLatency env.hz inp.respRecvTime p) (latencyInit env.cntx nbTx, []) inps) := by
  refine ⟨timedStep_measurements env inps _, ?_, fun htime => ?_⟩
  · refine Along.strengthen (fun _ => True) (fun _ _ _ _ => trivial) (fun s inp _ hcarry p hp => ?_)
      trivial h
    obtain ⟨-, hle, hiff, -⟩ := timedStep_exact_iff hhz hcarry hp
    exact ⟨hle, hiff⟩
  · refine Along.strengthen (fun _ => True) (fun _ _ _ _ => trivial) (fun s inp _ hboth p hp => ?_)
      trivial (along_and h htime)
    obtain ⟨hcarry, hin⟩ := hboth
    obtain ⟨hproc, -, hiff, a, ha, hmeas, hts⟩ := timedStep_exact_iff hhz hcarry hp
    refine hiff.mpr ?_
    rw [hts]
    exact hin hproc a ha hmeas

/-- A latency client on a timer of five gigahertz that sends batches of four packets. -/
def fastTimerEnv : LatencyEnv :=
  { sampleLatencyEnv with
    hz := 5000000000
    cntx := { sampleLatencyEnv.cntx with batch := 4 } }

/-- The reply to packet `i` of the first batch arrives. -/
def replyAt (i : Nat) (time : UInt64) : LatencyInput :=
  { sampleLatencyInput 4 [sampleReply 1 i] time with respRecvTime := time, startTime := time }

/-- Such a reply carries its build time. -/
theorem replyAt_carries (env : LatencyEnv) (hdelta : env.hdrSizeDelta = 0) (st : LatencyState)
    (i : Nat) (time : UInt64) :
    CarriesBuildTime env (st, [fun _ => 0]) (replyAt i time) := by
  intro _ a ha _
  have ha' : a = sampleReply 1 i := List.mem_singleton.mp ha
  subst ha'
  refine ⟨0, i, fun _ => 0, rfl, rfl, ?_, UInt64.zero_le⟩
  rw [hdelta]
  change load64 (sampleReply 1 0).buf.data 42 = 0
  decide

/-- The replies come one second after the other, the first after one second. -/
def slowReplies : List LatencyInput :=
  [sampleLatencyInput 4 [] 0, replyAt 0 5000000000, replyAt 1 10000000000,
    replyAt 2 15000000000, replyAt 3 20000000000]

theorem slowReplies_carry : Along (timedStep fastTimerEnv) (CarriesBuildTime fastTimerEnv)
    (latencyInit fastTimerEnv.cntx 0, []) slowReplies := by
  refine ⟨(fun h => nomatch h.1), ?_, ?_, ?_, ?_, trivial⟩
  · exact replyAt_carries fastTimerEnv rfl _ 0 _
  · exact replyAt_carries fastTimerEnv rfl _ 1 _
  · exact replyAt_carries fastTimerEnv rfl _ 2 _
  · exact replyAt_carries fastTimerEnv rfl _ 3 _

/-- The first three replies are measured correctly. -/
theorem latency_exact_three : Along (timedStep fastTimerEnv)
    (fun s inp => ∀ p ∈ recorded (timedStep fastTimerEnv s inp).2,
      ExactLatency fastTimerEnv.hz inp.respRecvTime p)
    (latencyInit fastTimerEnv.cntx 0, []) (slowReplies.take 4) := by
  have hcarry := slowReplies_carry.of_prefix (List.take_prefix 4 slowReplies)
  refine (latency_exact fastTimerEnv (by decide) 0 _ hcarry).2.2 ?_
  refine ⟨(fun h => nomatch h.1), ?_, ?_, ?_, trivial⟩
  all_goals
    intro _ a ha _
    rw [List.mem_singleton.mp ha]
    decide

/-- The fourth reply is four seconds old, and a latency of less than a third of a second is
recorded. -/
theorem latency_product_wraps :
    Along (timedStep fastTimerEnv) (CarriesBuildTime fastTimerEnv)
      (latencyInit fastTimerEnv.cntx 0, []) slowReplies ∧
    (final (timedStep fastTimerEnv) (latencyInit fastTimerEnv.cntx 0, [])
      slowReplies).1.measurements = [1000000000, 2000000000, 3000000000, 310651185] ∧
    ¬ Along (timedStep fastTimerEnv) (fun s inp => ∀ p ∈ recorded (timedStep fastTimerEnv s inp).2,
      ExactLatency fastTimerEnv.hz inp.respRecvTime p)
      (latencyInit fastTimerEnv.cntx 0, []) slowReplies := by
  refine ⟨slowReplies_carry, by decide, fun h => ?_⟩
  obtain ⟨-, -, -, -, hlast, -⟩ := h
  have hrec := hlast (0, 310651185) (by decide)
  unfold ExactLatency at hrec
  exact absurd hrec (by decide)

end DpdkEcho
