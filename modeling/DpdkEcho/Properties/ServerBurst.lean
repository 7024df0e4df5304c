import Mathlib.Data.List.Nodup
import Mathlib.Data.List.Perm.Basic
import DpdkEcho.Server

/-!
# What an iteration of the server does with a burst

* `echoPacket_cases` — everything the loop body can do with one packet
* `echo_txBuf` / `echo_freed` — the array and the freed packets after the filter loop
* `txLoop_sent` — the retry loop hands over the array front to back, whatever the driver takes
  at each call

From these follow the bound on the stores into `tx_buf` and the conservation of buffers.
-/

namespace DpdkEcho

open Infra

/-! ## Reading an event list -/

section
variable (e f : List ServerEvent)

@[simp] theorem receivedBufs_append :
    receivedBufs (e ++ f) = receivedBufs e ++ receivedBufs f := List.flatMap_append

@[simp] theorem freedBufs_append : freedBufs (e ++ f) = freedBufs e ++ freedBufs f :=
  List.flatMap_append

@[simp] theorem sentBufs_append : sentBufs (e ++ f) = sentBufs e ++ sentBufs f :=
  List.flatMap_append

@[simp] theorem storedIndices_append :
    storedIndices (e ++ f) = storedIndices e ++ storedIndices f := List.flatMap_append

@[simp] theorem statusSlots_append :
    statusSlots (e ++ f) = statusSlots e ++ statusSlots f := List.flatMap_append

end

/-- ARP replies touch none of the packets and arrays. -/
theorem arp_events (args : List ArpSend) :
    receivedBufs (args.map .arp) = [] ∧ freedBufs (args.map .arp) = [] ∧
      sentBufs (args.map .arp) = [] ∧ storedIndices (args.map .arp) = [] ∧
      statusSlots (args.map .arp) = [] := by
  simp [receivedBufs, freedBufs, sentBufs, storedIndices, statusSlots, List.flatMap_map]

/-! ## One packet -/

/--
What the loop body does with a packet: a rejected one is freed (an ARP reply may go out first)
and changes nothing else, an accepted one is freed in unidirectional mode and queued, rewritten,
at index `k` in bidirectional mode.
-/
theorem echoPacket_cases (cntx : Context) (now : UInt64) (st : EchoState) (buf : Mbuf) :
    (passesFilters cntx buf = false ∧ (echoPacket cntx now st buf).1 = st ∧
      ∃ args : List ArpSend, (echoPacket cntx now st buf).2 = args.map .arp ++ [.free buf]) ∨
    (passesFilters cntx buf = true ∧ cntx.bidi = false ∧
      (echoPacket cntx now st buf).1.k = st.k ∧
      (echoPacket cntx now st buf).1.txBuf = st.txBuf ∧
      (echoPacket cntx now st buf).2 = [.free buf]) ∨
    (passesFilters cntx buf = true ∧ cntx.bidi = true ∧
      (echoPacket cntx now st buf).1.k = st.k + 1 ∧
      (echoPacket cntx now st buf).1.txBuf =
        Function.update st.txBuf st.k (echoRewrite cntx.useVlan buf) ∧
      (echoPacket cntx now st buf).2 = [.storeTx st.k (echoRewrite cntx.useVlan buf)]) := by
  unfold echoPacket passesFilters
  by_cases h1 : cntx.doArp = true ∧ ¬ (checkEthHdr cntx.srcIp cntx.myEth buf).valid = true
  · refine Or.inl ⟨?_, ?_, (checkEthHdr cntx.srcIp cntx.myEth buf).reply.toList, ?_⟩
    · simp [h1.1, Bool.eq_false_iff.mpr h1.2]
    · simp only [if_pos h1]
    · simp only [if_pos h1]
  · have hv : (!cntx.doArp || (checkEthHdr cntx.srcIp cntx.myEth buf).valid) = true := by
      cases ha : cntx.doArp with
      | false => rfl
      | true =>
        rw [ha] at h1
        simpa using h1
    simp only [if_neg h1, hv, Bool.true_and]
    by_cases h2 : load16 buf.data ethEtherType = expectedEtherType cntx.useVlan
    · by_cases h3 : load32 buf.data (l2Len cntx.useVlan + ipDstAddr) = cntx.srcIp
      · refine Or.inr ?_
        cases hb : cntx.bidi with
        | false => exact Or.inl (by simp [h2, h3])
        | true => exact Or.inr (by simp [h2, h3])
      · exact Or.inl ⟨by simp [h3], by simp [h2, h3], [], by simp [h2, h3]⟩
    · exact Or.inl ⟨by simp [h2], by simp [h2], [], by simp [h2]⟩

/-! ## The filter loop -/

section
variable {cntx : Context} (now : UInt64)

/-- The loop neither receives nor transmits nor touches `queue_status`. -/
theorem echo_silent (bufs : List Mbuf) (st : EchoState) :
    receivedBufs (trace (echoPacket cntx now) st bufs) = [] ∧
      sentBufs (trace (echoPacket cntx now) st bufs) = [] ∧
      statusSlots (trace (echoPacket cntx now) st bufs) = [] := by
  induction bufs generalizing st with
  | nil => exact ⟨rfl, rfl, rfl⟩
  | cons b bs ih =>
    obtain ⟨i1, i2, i3⟩ := ih (echoPacket cntx now st b).1
    simp only [trace_cons, receivedBufs_append, sentBufs_append, statusSlots_append, i1, i2, i3]
    rcases echoPacket_cases cntx now st b with
      ⟨-, -, args, he⟩ | ⟨-, -, -, -, he⟩ | ⟨-, -, -, -, he⟩
    · obtain ⟨a1, -, a3, -, a5⟩ := arp_events args
      rw [he, receivedBufs_append, sentBufs_append, statusSlots_append, a1, a3, a5]
      exact ⟨rfl, rfl, rfl⟩
    · rw [he]; exact ⟨rfl, rfl, rfl⟩
    · rw [he]; exact ⟨rfl, rfl, rfl⟩

/-- In bidirectional mode the rejected packets are freed and no others. -/
theorem echo_freed_bidi (hb : cntx.bidi = true) (bufs : List Mbuf) (st : EchoState) :
    freedBufs (trace (echoPacket cntx now) st bufs)
      = bufs.filter (fun b => !passesFilters cntx b) := by
  induction bufs generalizing st with
  | nil => rfl
  | cons b bs ih =>
    rw [trace_cons, freedBufs_append, ih, List.filter_cons]
    rcases echoPacket_cases cntx now st b with
      ⟨hp, -, args, he⟩ | ⟨-, hb', -⟩ | ⟨hp, -, -, -, he⟩
    · obtain ⟨-, a2, -⟩ := arp_events args
      rw [he, freedBufs_append, a2]
      simp [hp, freedBufs]
    · rw [hb] at hb'; cases hb'
    · simp [he, hp, freedBufs]

/-- In unidirectional mode every packet is freed. -/
theorem echo_freed_unidir (hb : cntx.bidi = false) (bufs : List Mbuf) (st : EchoState) :
    freedBufs (trace (echoPacket cntx now) st bufs) = bufs := by
  induction bufs generalizing st with
  | nil => rfl
  | cons b bs ih =>
    rw [trace_cons, freedBufs_append, ih]
    rcases echoPacket_cases cntx now st b with
      ⟨-, -, args, he⟩ | ⟨-, -, -, -, he⟩ | ⟨-, hb', -⟩
    · obtain ⟨-, a2, -⟩ := arp_events args
      rw [he, freedBufs_append, a2]
      rfl
    · rw [he]; rfl
    · rw [hb] at hb'; cases hb'

/-- **The stores into `tx_buf` go to consecutive indices**, one for each accepted packet. -/
theorem echo_storedIndices (hb : cntx.bidi = true) (bufs : List Mbuf) (st : EchoState) :
    storedIndices (trace (echoPacket cntx now) st bufs)
      = List.range' st.k (bufs.countP (passesFilters cntx)) := by
  induction bufs generalizing st with
  | nil => rfl
  | cons b bs ih =>
    rw [trace_cons, storedIndices_append, ih, List.countP_cons]
    rcases echoPacket_cases cntx now st b with
      ⟨hp, hst, args, he⟩ | ⟨-, hb', -⟩ | ⟨hp, -, hk, -, he⟩
    · obtain ⟨-, -, -, a4, -⟩ := arp_events args
      rw [he, storedIndices_append, a4, hst]
      simp [hp, storedIndices]
    · rw [hb] at hb'; cases hb'
    · rw [he, hk, if_pos hp, List.range'_succ]
      rfl

/-- `k` grows by the number of accepted packets, and from the old `k` on the array holds them,
rewritten, in receive order. Entries below the old `k` stay. -/
theorem echo_txBuf (hb : cntx.bidi = true) (bufs : List Mbuf) (st : EchoState) :
    let out := final (echoPacket cntx now) st bufs
    out.k = st.k + bufs.countP (passesFilters cntx) ∧
      (∀ i, i < st.k → out.txBuf i = st.txBuf i) ∧
      (List.range' st.k (bufs.countP (passesFilters cntx))).map out.txBuf
        = (bufs.filter (passesFilters cntx)).map (echoRewrite cntx.useVlan) := by
  induction bufs generalizing st with
  | nil => simp
  | cons b bs ih =>
    obtain ⟨ik, ilow, imap⟩ := ih (echoPacket cntx now st b).1
    simp only [final_cons, List.countP_cons, List.filter_cons]
    rcases echoPacket_cases cntx now st b with
      ⟨hp, hst, -⟩ | ⟨-, hb', -⟩ | ⟨hp, -, hk, htx, -⟩
    · rw [hst] at ik ilow imap ⊢
      simp only [hp, Bool.false_eq_true, if_false, Nat.add_zero]
      exact ⟨ik, ilow, imap⟩
    · rw [hb] at hb'; cases hb'
    · rw [hk] at ik ilow imap
      simp only [hp, if_true]
      refine ⟨by rw [ik]; omega, ?_, ?_⟩
      · intro i hi
        rw [ilow i (by omega), htx, Function.update_of_ne (by omega)]
      · rw [List.range'_succ, List.map_cons, imap, ilow st.k (by omega), htx,
          Function.update_self, List.map_cons]

end

/-! ## The retry loop -/

/-- **In-place compaction.** Moving `t[i]` to `t[i - n]` for `i = n, ..., n + c - 1`, in this
order, shifts the range by `n`: a target index never lies ahead of an index still to be read. -/
theorem foldl_moveToFront (n c : Nat) (t : Nat → Mbuf) :
    ∀ j, (List.range' n c).foldl (fun t i => Function.update t (i - n) (t i)) t j
      = if j < c then t (j + n) else t j := by
  induction c with
  | zero => intro j; simp
  | succ c ih =>
    intro j
    rw [List.range'_1_concat, List.foldl_append, List.foldl_cons, List.foldl_nil,
      Nat.add_sub_cancel_left]
    by_cases hj : j = c
    · subst hj
      rw [Function.update_self, ih, if_neg (by omega), if_pos (by omega), Nat.add_comm]
    · rw [Function.update_of_ne hj, ih]
      by_cases hlt : j < c
      · rw [if_pos hlt, if_pos (by omega)]
      · rw [if_neg hlt, if_neg (by omega)]

theorem moveToFront_get {t : Nat → Mbuf} {n k j : Nat} (h : j < k - n) :
    moveToFront t n k j = t (j + n) := by
  rw [moveToFront, foldl_moveToFront, if_pos h]

/-- The packets still in the array. -/
def TxState.pending (st : TxState) : List Mbuf := (List.range st.k).map st.txBuf

/-- One call of the driver: what it takes, followed by what stays, is what there was. -/
theorem txRetry_sent (qid : Nat) (st : TxState) (w : Nat) (hk : st.k < 2 ^ 16) :
    sentBufs (txRetry qid st w).2 ++ (txRetry qid st w).1.pending = st.pending ∧
      (txRetry qid st w).1.k ≤ st.k := by
  unfold txRetry
  split
  · next h0 => exact ⟨rfl, Nat.le_refl _⟩
  · next h0 =>
    have hle : txBurst w st.k ≤ st.k := txBurst_le w st.k
    rw [Nat.mod_eq_of_lt hk]
    refine ⟨?_, Nat.sub_le _ _⟩
    simp only [TxState.pending, sentBufs, List.flatMap_cons, List.flatMap_nil, List.append_nil]
    -- split the array where the driver stopped; the compaction moves the second part down
    rw [← Nat.add_sub_cancel' hle, List.range_add, List.map_append, Nat.add_sub_cancel' hle]
    congr 1
    rw [List.map_map]
    refine List.map_congr_left fun j hj => ?_
    rw [Function.comp_apply, moveToFront_get (List.mem_range.mp hj), Nat.add_comm]

/-- A driver that takes everything empties the array. -/
theorem txRetry_all (qid : Nat) (st : TxState) (hk : st.k < 2 ^ 16) :
    (txRetry qid st st.k).1.k = 0 := by
  unfold txRetry
  split
  · assumption
  · rw [Nat.mod_eq_of_lt hk, txBurst, Nat.min_self]
    exact Nat.sub_self st.k

/-- The driver calls free nothing and leave the other arrays alone. -/
theorem txRetry_silent (qid : Nat) (st : TxState) (w : Nat) :
    receivedBufs (txRetry qid st w).2 = [] ∧ freedBufs (txRetry qid st w).2 = [] ∧
      storedIndices (txRetry qid st w).2 = [] ∧ statusSlots (txRetry qid st w).2 = [] := by
  unfold txRetry
  split
  · exact ⟨rfl, rfl, rfl, rfl⟩
  · exact ⟨rfl, rfl, rfl, rfl⟩

theorem txLoop_silent (qid : Nat) : ∀ (ws : List Nat) (st : TxState),
    receivedBufs (txLoop qid ws st).2 = [] ∧ freedBufs (txLoop qid ws st).2 = [] ∧
      storedIndices (txLoop qid ws st).2 = [] ∧ statusSlots (txLoop qid ws st).2 = []
  | [], st => txRetry_silent qid st st.k
  | w :: ws, st => by
    obtain ⟨r1, r2, r3, r4⟩ := txRetry_silent qid st w
    obtain ⟨i1, i2, i3, i4⟩ := txLoop_silent qid ws (txRetry qid st w).1
    simp [txLoop, r1, r2, r3, r4, i1, i2, i3, i4]

/-- **Whatever the driver takes at each call, the retry loop hands over every packet of the
array once, front to back.** -/
theorem txLoop_sent (qid : Nat) : ∀ (ws : List Nat) (st : TxState), st.k < 2 ^ 16 →
    sentBufs (txLoop qid ws st).2 = st.pending
  | [], st, hk => by
    have hsent := (txRetry_sent qid st st.k hk).1
    have hzero : (txRetry qid st st.k).1.pending = [] := by
      rw [TxState.pending, txRetry_all qid st hk]
      rfl
    rwa [hzero, List.append_nil] at hsent
  | w :: ws, st, hk => by
    obtain ⟨hsent, hle⟩ := txRetry_sent qid st w hk
    have ih := txLoop_sent qid ws (txRetry qid st w).1 (by omega)
    rw [← hsent, ← ih]
    simp [txLoop]

/-! ## A burst -/

section
variable (cntx : Context) (st : ServerState) (qid : Nat) (bufs : List Mbuf) (inp : ServerInput)

theorem serveBurst_unidir (hb : cntx.bidi = false) :
    (serveBurst cntx st qid bufs inp).2
      = trace (echoPacket cntx inp.currentTime) st.echoStart bufs := by
  simp [serveBurst, hb]

theorem serveBurst_bidi (hb : cntx.bidi = true) :
    ∃ deadline : UInt64, (serveBurst cntx st qid bufs inp).2
      = trace (echoPacket cntx inp.currentTime) st.echoStart bufs
        ++ [.writeStatus qid deadline]
        ++ (txLoop qid inp.willing
            { txBuf := (final (echoPacket cntx inp.currentTime) st.echoStart bufs).txBuf,
              k := (final (echoPacket cntx inp.currentTime) st.echoStart bufs).k }).2 := by
  simp [serveBurst, hb]

theorem serveBurst_received : receivedBufs (serveBurst cntx st qid bufs inp).2 = [] := by
  have hsilent := (@echo_silent cntx inp.currentTime bufs st.echoStart).1
  cases hb : cntx.bidi with
  | false => rw [serveBurst_unidir _ _ _ _ _ hb, hsilent]
  | true =>
    obtain ⟨deadline, he⟩ := serveBurst_bidi cntx st qid bufs inp hb
    rw [he, receivedBufs_append, receivedBufs_append, hsilent, (txLoop_silent _ _ _).1]
    rfl

/-- Every store of a burst is below the number of accepted packets, and each index below that
number is stored to. -/
theorem serveBurst_storedIndices (hb : cntx.bidi = true) :
    storedIndices (serveBurst cntx st qid bufs inp).2
      = List.range (bufs.countP (passesFilters cntx)) := by
  obtain ⟨deadline, he⟩ := serveBurst_bidi cntx st qid bufs inp hb
  rw [he, storedIndices_append, storedIndices_append, echo_storedIndices inp.currentTime hb,
    (txLoop_silent _ _ _).2.2.1, List.range_eq_range']
  simp [storedIndices, ServerState.echoStart]

/-- In bidirectional mode the rejected packets are freed. -/
theorem serveBurst_freed_bidi (hb : cntx.bidi = true) :
    freedBufs (serveBurst cntx st qid bufs inp).2
      = bufs.filter (fun b => !passesFilters cntx b) := by
  obtain ⟨deadline, he⟩ := serveBurst_bidi cntx st qid bufs inp hb
  rw [he, freedBufs_append, freedBufs_append, echo_freed_bidi inp.currentTime hb,
    (txLoop_silent _ _ _).2.1]
  simp [freedBufs]

/-- **In bidirectional mode the accepted packets are handed over, in receive order.** -/
theorem serveBurst_sent_bidi (hb : cntx.bidi = true)
    (hk : bufs.countP (passesFilters cntx) < 2 ^ 16) :
    sentBufs (serveBurst cntx st qid bufs inp).2
      = (bufs.filter (passesFilters cntx)).map (echoRewrite cntx.useVlan) := by
  obtain ⟨deadline, he⟩ := serveBurst_bidi cntx st qid bufs inp hb
  obtain ⟨hlen, -, hmap⟩ :=
    echo_txBuf inp.currentTime hb bufs st.echoStart
  have hzero : st.echoStart.k = 0 := rfl
  rw [hzero, Nat.zero_add] at hlen
  rw [hzero, ← List.range_eq_range'] at hmap
  rw [he, sentBufs_append, sentBufs_append, (echo_silent inp.currentTime bufs st.echoStart).2.1,
    txLoop_sent _ _ _ (by simpa [hlen] using hk), TxState.pending, hlen, hmap]
  rfl

end

/-! ## An iteration -/

section
variable (hz : UInt64) (cntx : Context) (st : ServerState) (inp : ServerInput)

/--
What an iteration does: nothing after the loop was left, at most a look at the deadline of the
queue when it is too early, and otherwise a receive call followed by the handling of a non-empty
burst.
-/
theorem serverStep_events :
    (serverStep hz cntx st inp).2 = [] ∨
    (serverStep hz cntx st inp).2 = [.readStatus (selectedQid cntx st) inp.currentTime] ∨
    ((serverStep hz cntx st inp).2 = [.readStatus (selectedQid cntx st) inp.currentTime,
        .rx (selectedQid cntx st) inp.currentTime []]) ∨
    ∃ st' : ServerState,
      (serverStep hz cntx st inp).2
        = [.readStatus (selectedQid cntx st) inp.currentTime,
            .rx (selectedQid cntx st) inp.currentTime (rxBurst inp.waiting serverBurstSize)]
          ++ (serveBurst cntx st' (selectedQid cntx st)
                (rxBurst inp.waiting serverBurstSize) inp).2 := by
  unfold serverStep
  split
  · exact Or.inl rfl
  · simp only []
    split
    · exact Or.inl rfl
    · unfold pollQueue
      split
      · exact Or.inr (Or.inl rfl)
      · simp only []
        split
        · next he =>
          have hnil : rxBurst inp.waiting serverBurstSize = [] := List.isEmpty_iff.mp he
          refine Or.inr (Or.inr (Or.inl ?_))
          split <;> rw [hnil]
        · exact Or.inr (Or.inr (Or.inr ⟨_, rfl⟩))

@[simp] theorem updateThroughput_queueStatus (now : UInt64) :
    (st.updateThroughput hz now).queueStatus = st.queueStatus := by
  unfold ServerState.updateThroughput
  split <;> rfl

/-- An iteration that polls its queue handles the burst it reads there. -/
theorem serverStep_of_polls (hp : polls hz cntx st inp) :
    (serverStep hz cntx st inp).2
      = [.readStatus (selectedQid cntx st) inp.currentTime,
          .rx (selectedQid cntx st) inp.currentTime (rxBurst inp.waiting serverBurstSize)]
        ++ (if (rxBurst inp.waiting serverBurstSize).isEmpty then []
            else (serveBurst cntx ((st.nextQueue cntx).updateThroughput hz inp.currentTime)
                    (selectedQid cntx st) (rxBurst inp.waiting serverBurstSize) inp).2) := by
  obtain ⟨hrun, hbegin, hready⟩ := hp
  have hbegin' : ¬ (¬ (st.nextQueue cntx).firstPkt = true ∧
      inp.currentTime - (st.nextQueue cntx).expBegin > 60 * hz) := hbegin
  have hready' : ¬ ((st.nextQueue cntx).updateThroughput hz inp.currentTime).queueStatus
      (selectedQid cntx st) > inp.currentTime := by
    rw [updateThroughput_queueStatus]
    exact hready
  unfold serverStep
  rw [if_neg (by simp [hrun])]
  simp only []
  rw [if_neg hbegin', pollQueue, if_neg hready']
  simp only []
  split
  · split <;> rfl
  · rfl

theorem serverStep_received (hp : polls hz cntx st inp) :
    receivedBufs (serverStep hz cntx st inp).2 = rxBurst inp.waiting serverBurstSize := by
  rw [serverStep_of_polls hz cntx st inp hp, receivedBufs_append]
  split
  · simp [receivedBufs]
  · rw [serveBurst_received]
    simp [receivedBufs]

/-- What an iteration frees and hands over, in terms of what it received. -/
theorem serverStep_freed_sent
    (hk : (receivedBufs (serverStep hz cntx st inp).2).countP (passesFilters cntx) ≤ txBufSize) :
    (cntx.bidi = true →
      freedBufs (serverStep hz cntx st inp).2
          = (receivedBufs (serverStep hz cntx st inp).2).filter (fun b => !passesFilters cntx b) ∧
        sentBufs (serverStep hz cntx st inp).2
          = ((receivedBufs (serverStep hz cntx st inp).2).filter (passesFilters cntx)).map
              (echoRewrite cntx.useVlan)) ∧
    (cntx.bidi = false →
      freedBufs (serverStep hz cntx st inp).2 = receivedBufs (serverStep hz cntx st inp).2 ∧
        sentBufs (serverStep hz cntx st inp).2 = []) := by
  rcases serverStep_events hz cntx st inp with he | he | he | ⟨st', he⟩
  · rw [he]; exact ⟨fun _ => ⟨rfl, rfl⟩, fun _ => ⟨rfl, rfl⟩⟩
  · rw [he]; exact ⟨fun _ => ⟨rfl, rfl⟩, fun _ => ⟨rfl, rfl⟩⟩
  · rw [he]; exact ⟨fun _ => ⟨rfl, rfl⟩, fun _ => ⟨rfl, rfl⟩⟩
  · -- the only case in which anything was received
    rw [he] at hk ⊢
    simp only [receivedBufs_append, freedBufs_append, sentBufs_append, serveBurst_received] at hk ⊢
    have hr : ∀ (q : Nat) (t : UInt64) (bufs : List Mbuf),
        receivedBufs [.readStatus q t, .rx q t bufs] = bufs := by simp [receivedBufs]
    rw [hr, List.append_nil] at hk ⊢
    constructor
    · intro hb
      constructor
      · rw [serveBurst_freed_bidi _ _ _ _ _ hb]
        rfl
      · rw [serveBurst_sent_bidi _ _ _ _ _ hb (by unfold txBufSize at hk; omega)]
        rfl
    · intro hb
      constructor
      · rw [serveBurst_unidir _ _ _ _ _ hb, echo_freed_unidir inp.currentTime hb]
        rfl
      · rw [serveBurst_unidir _ _ _ _ _ hb, (echo_silent _ _ _).2.1]
        rfl

end

/-! ## The bound on `tx_buf` -/

/-- The stores of an iteration that reads a burst: one for each accepted packet. -/
theorem serverStep_storedIndices {hz : UInt64} {cntx : Context} {st : ServerState}
    {inp : ServerInput} (hb : cntx.bidi = true) (hp : polls hz cntx st inp) :
    storedIndices (serverStep hz cntx st inp).2
      = List.range ((rxBurst inp.waiting serverBurstSize).countP (passesFilters cntx)) := by
  rw [serverStep_of_polls hz cntx st inp hp, storedIndices_append]
  split
  · next he => rw [List.isEmpty_iff.mp he]; rfl
  · rw [serveBurst_storedIndices _ _ _ _ _ hb]
    rfl

/--
**The echo loop stays inside `tx_buf` exactly when at most 64 packets of the burst pass the
filters.** The receive call asks for 1024.
-/
theorem tx_buf_stores_in_bounds_iff (hz : UInt64) (cntx : Context) (hb : cntx.bidi = true)
    (st : ServerState) (inp : ServerInput) (hp : polls hz cntx st inp) :
    (∀ i ∈ storedIndices (serverStep hz cntx st inp).2, i < txBufSize) ↔
      (rxBurst inp.waiting serverBurstSize).countP (passesFilters cntx) ≤ txBufSize := by
  rw [serverStep_storedIndices hb hp]
  constructor
  · intro h
    by_contra hc
    exact Nat.lt_irrefl _ (h txBufSize (List.mem_range.mpr (by omega)))
  · intro h i hi
    exact Nat.lt_of_lt_of_le (List.mem_range.mp hi) h

/-- A server at 1.1.1.1 with the locally administered address 02:02:02:02:02:02. -/
def sampleServer : Context where
  workerId := 0
  defaultQid := 0
  myEth := ⟨List.replicate 6 2, by simp⟩
  srcIp := 0x01010101
  srcPort := 8080
  countQueues := 1
  useVlan := false
  bidi := true
  doArp := true
  delayCycles := 0
  managedQueues := [0]
  duration := 0
  dstIps := []
  dstPort := 0
  payloadLength := 0
  countFlow := 0
  basePortNumber := 0
  rateLimit := false
  rate := 0
  batch := 0

/-- An IPv4 packet for `sampleServer`. -/
def samplePacket (id : Nat) : Mbuf where
  id := id
  data := fun i => if i < 6 then 2 else if i = 12 then 8 else if 30 ≤ i ∧ i < 34 then 1 else 0
  dataLen := 60
  l2Len := 0
  l3Len := 0
  olFlags := 0

theorem passesFilters_samplePacket (id : Nat) :
    passesFilters sampleServer (samplePacket id) = true := by
  have hdata : (samplePacket id).data = (samplePacket 0).data := rfl
  have hsame : passesFilters sampleServer (samplePacket id)
      = passesFilters sampleServer (samplePacket 0) := by
    simp only [passesFilters, checkEthHdr, arpSenderMac, arpSenderIp, hdata]
  rw [hsame]
  decide

/-- `sampleServer` before its first iteration. -/
def sampleState : ServerState := serverInit sampleServer 0 (fun _ => 0) samplePacket

/-- An iteration in which `n` packets for the server wait. -/
def sampleInput (n : Nat) : ServerInput where
  currentTime := 0
  waiting := (List.range n).map samplePacket
  statusTime := 0
  willing := []

theorem polls_sample (n : Nat) : polls 1000 sampleServer sampleState (sampleInput n) := by
  refine ⟨rfl, ?_, ?_⟩
  · exact fun h => absurd h.2 (show ¬ (0 - 0 : UInt64) > 60 * 1000 by decide)
  · exact (show ¬ (0 : UInt64) > 0 by decide)

theorem countP_sample (n : Nat) (h : n ≤ serverBurstSize) :
    (rxBurst (sampleInput n).waiting serverBurstSize).countP (passesFilters sampleServer) = n := by
  have hall : (rxBurst (sampleInput n).waiting serverBurstSize)
      = (List.range n).map samplePacket := by
    rw [rxBurst]
    exact List.take_of_length_le (by simpa [sampleInput] using h)
  rw [hall, List.countP_eq_length.mpr]
  · simp
  · intro b hb
    obtain ⟨i, -, rfl⟩ := List.mem_map.mp hb
    exact passesFilters_samplePacket i

/-- A burst of 64 packets for the server fills the array and no more. -/
theorem tx_buf_stores_in_bounds_full :
    63 ∈ storedIndices (serverStep 1000 sampleServer sampleState (sampleInput 64)).2 ∧
      ∀ i ∈ storedIndices (serverStep 1000 sampleServer sampleState (sampleInput 64)).2,
        i < txBufSize := by
  have hcount := countP_sample 64 (by decide)
  constructor
  · rw [serverStep_storedIndices rfl (polls_sample 64), hcount]
    decide
  · exact (tx_buf_stores_in_bounds_iff 1000 sampleServer rfl sampleState (sampleInput 64)
      (polls_sample 64)).mpr (Nat.le_of_eq hcount)

/-- The 65th packet of a burst is stored behind the end of the array. -/
theorem tx_buf_overflows_at_65 :
    ¬ ∀ i ∈ storedIndices (serverStep 1000 sampleServer sampleState (sampleInput 65)).2,
      i < txBufSize := by
  rw [serverStep_storedIndices rfl (polls_sample 65), countP_sample 65 (by decide)]
  decide

/-! ## Conservation of buffers -/

/--
**Conservation and order.** In an iteration that receives at most 64 echoable packets, whatever
the driver takes at each transmit call, the buffers freed and the buffers handed over are
together the buffers received, each as often as it was received. In bidirectional mode the
driver gets the packets that pass the filters, rewritten, in receive order; in unidirectional
mode everything is freed.
-/
theorem server_conserves_buffers (hz : UInt64) (cntx : Context) (st : ServerState)
    (inp : ServerInput)
    (hk : (receivedBufs (serverStep hz cntx st inp).2).countP (passesFilters cntx) ≤ txBufSize) :
    let received := receivedBufs (serverStep hz cntx st inp).2
    let freed := freedBufs (serverStep hz cntx st inp).2
    let sent := sentBufs (serverStep hz cntx st inp).2
    ((freed ++ sent).map Mbuf.id).Perm (received.map Mbuf.id) ∧
    ((received.map Mbuf.id).Nodup → ∀ b ∈ received,
      (freed.map Mbuf.id).count b.id + (sent.map Mbuf.id).count b.id = 1) ∧
    (cntx.bidi = true →
      sent = (received.filter (passesFilters cntx)).map (echoRewrite cntx.useVlan)) ∧
    (cntx.bidi = false → freed = received ∧ sent = []) := by
  obtain ⟨hbidi, hunidir⟩ := serverStep_freed_sent hz cntx st inp hk
  intro received freed sent
  have hperm : ((freed ++ sent).map Mbuf.id).Perm (received.map Mbuf.id) := by
    cases hb : cntx.bidi with
    | false =>
      obtain ⟨hf, hs⟩ := hunidir hb
      rw [show freed = received from hf, show sent = [] from hs, List.append_nil]
    | true =>
      obtain ⟨hf, hs⟩ := hbidi hb
      have hid : Mbuf.id ∘ echoRewrite cntx.useVlan = Mbuf.id := rfl
      rw [List.map_append, show freed = _ from hf, show sent = _ from hs, List.map_map, hid,
        ← List.map_append]
      exact (List.perm_append_comm.trans (List.filter_append_perm _ _)).map Mbuf.id
  refine ⟨hperm, ?_, fun hb => (hbidi hb).2, hunidir⟩
  intro hnodup b hmem
  rw [← List.count_append, ← List.map_append, hperm.count_eq]
  exact List.count_eq_one_of_mem hnodup (List.mem_map_of_mem hmem)

/-- Three packets for the server, and a driver that takes one, none, then the rest. -/
theorem server_conserves_buffers_three :
    sentBufs (serverStep 1000 sampleServer sampleState { sampleInput 3 with willing := [1, 0] }).2
      = ((List.range 3).map samplePacket).map (echoRewrite false) := by
  have hp : polls 1000 sampleServer sampleState { sampleInput 3 with willing := [1, 0] } :=
    polls_sample 3
  have hr := serverStep_received _ _ _ _ hp
  have hall : (rxBurst (sampleInput 3).waiting serverBurstSize).filter (passesFilters sampleServer)
      = (List.range 3).map samplePacket := by
    refine List.filter_eq_self.mpr fun b hb => ?_
    obtain ⟨i, -, rfl⟩ := List.mem_map.mp (List.mem_of_mem_take hb)
    exact passesFilters_samplePacket i
  have h := (server_conserves_buffers 1000 sampleServer sampleState
    { sampleInput 3 with willing := [1, 0] }
    (by rw [hr]; exact Nat.le_trans (Nat.le_of_eq (countP_sample 3 (by decide))) (by decide))).2.2.1
      rfl
  rw [h, hr]
  exact congrArg (List.map (echoRewrite false)) hall

end DpdkEcho
