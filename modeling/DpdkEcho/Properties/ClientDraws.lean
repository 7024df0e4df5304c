import DpdkEcho.Properties.RandTable
import DpdkEcho.Properties.RateLimit

/-!
# The packets of a client that draws its own numbers

A rank becomes a source address and the number in a payload without a further check. Since the
generators of a single worker never fail, every packet of a run comes from one of the addresses that
`--zipf-client-addr` describes, and every number is below `--max-num`.

* `drawn_simulates`: a run that draws its numbers is a run of the transmit loop
* `buildBurst_drawn`: what the draws of a burst leave in its packets
* `client_draws_in_range`: the packets of every run
-/

namespace DpdkEcho

open Infra

/-! ## The draws of a burst -/

/-- The generators a client uses are usable. -/
structure Generators.Usable (env : ClientEnv) (gens : Generators) : Prop where
  srcZipf : env.client.selectSrcIp = true → gens.srcZipf.Usable
  zgen : env.build.payloadNumber = true → gens.zgen.Usable

/-- The draws of a packet have a rank. -/
structure Draws.InRange (env : ClientEnv) (gens : Generators) (draws : Draws) : Prop where
  rank : env.client.selectSrcIp = true → 1 ≤ draws.rank ∧ draws.rank ≤ gens.srcZipf.n
  num : env.build.payloadNumber = true → 1 ≤ draws.num ∧ draws.num ≤ gens.zgen.n

theorem genIf_rank {gen : ZipfGen} {used : Bool} (hgen : used = true → gen.Usable)
    {st : RandState} (h : RandRun st) : ∃ st' rank, gen.genIf used st = some (st', rank) ∧
      RandRun st' ∧ (used = true → 1 ≤ rank ∧ rank ≤ gen.n) := by
  cases used with
  | false => exact ⟨st, 0, rfl, h, fun hf => Bool.noConfusion hf⟩
  | true =>
    obtain ⟨st', rank, hcall, hrun, hrank⟩ := (hgen rfl).gen_rank h
    exact ⟨st', rank, hcall, hrun, fun _ => hrank⟩

section
variable {env : ClientEnv} {gens : Generators} (hgens : gens.Usable env)
include hgens

theorem drawPacket_ok (timestamp : UInt64) {st : RandState} (h : RandRun st) :
    ∃ st' draws, drawPacket env gens timestamp st = some (st', draws) ∧ RandRun st' ∧
      draws.InRange env gens := by
  obtain ⟨st1, rank, hsrc, hrun1, hrank⟩ := genIf_rank hgens.srcZipf h
  obtain ⟨st2, srvId, hid, hrun2⟩ : ∃ st2 srvId,
      (if env.build.useTcp ∧ env.client.addKatranOpt > 0 then myrand st1 else (st1, 0))
        = (st2, srvId) ∧ RandRun st2 := by
    split
    · exact ⟨_, _, rfl, (randRun_myrand hrun1).1⟩
    · exact ⟨_, _, rfl, hrun1⟩
  obtain ⟨st3, num, hnum, hrun3, hnums⟩ := genIf_rank hgens.zgen hrun2
  refine ⟨st3, { rank := rank, myrand := srvId, timestamp := timestamp, num := num }, ?_, hrun3,
    hrank, hnums⟩
  simp only [drawPacket, hsrc, hid, hnum, Option.bind_eq_bind, Option.bind_some]
  rfl

theorem drawBurst_ok : ∀ (timestamps : List UInt64) {st : RandState}, RandRun st →
    ∃ st' draws, drawBurst env gens timestamps st = some (st', draws) ∧ RandRun st' ∧
      draws.length = timestamps.length ∧ ∀ d ∈ draws, d.InRange env gens
  | [], st, h => ⟨st, [], rfl, h, rfl, fun _ hd => absurd hd List.not_mem_nil⟩
  | timestamp :: rest, st, h => by
    obtain ⟨st1, d, hfirst, hrun1, hd⟩ := drawPacket_ok hgens timestamp h
    obtain ⟨st2, ds, hrest, hrun2, hlen, hds⟩ := drawBurst_ok rest hrun1
    refine ⟨st2, d :: ds, ?_, hrun2, by rw [List.length_cons, List.length_cons, hlen],
      fun d' hd' => ?_⟩
    · rw [drawBurst, hfirst]
      simp only [Option.bind_eq_bind, Option.bind_some, hrest]
      rfl
    · rcases List.mem_cons.mp hd' with rfl | hd'
      · exact hd
      · exact hds d' hd'

/-! ## An iteration -/

/-- **An iteration that draws its numbers is one of the transmit loop.** If it does anything, its
draws are in range. -/
theorem drawnStep_simulates {s : DrawnState} (h : RandRun s.rand) (inp : TransmitInput) :
    ∃ draws s', drawnStep env gens (some s) inp
        = (some s', (transmitStep env s.tx { inp with draws := draws }).2) ∧
      s'.tx = (transmitStep env s.tx { inp with draws := draws }).1 ∧ RandRun s'.rand ∧
      ((transmitStep env s.tx { inp with draws := draws }).2 = [] ∨
        ∀ i < env.cntx.batch.toNat, Draws.InRange env gens (draws i)) := by
  by_cases hidle : (transmitStep env s.tx inp).2.isEmpty = true
  · have hnil : (transmitStep env s.tx inp).2 = [] := List.isEmpty_iff.mp hidle
    refine ⟨inp.draws, { s with tx := (transmitStep env s.tx inp).1 }, ?_, rfl, h, Or.inl hnil⟩
    simp only [drawnStep, if_pos hidle]
    rw [hnil]
  · obtain ⟨st', ds, hburst, hrun, hlen, hds⟩ := drawBurst_ok hgens
      ((List.range env.cntx.batch.toNat).map fun i => (inp.draws i).timestamp) h
    rw [List.length_map, List.length_range] at hlen
    refine ⟨fun i => ds.getD i Draws.none,
      { tx := (transmitStep env s.tx { inp with draws := fun i => ds.getD i Draws.none }).1
        rand := st' }, ?_, rfl, hrun, Or.inr fun i hi => ?_⟩
    · simp only [drawnStep, if_neg hidle, hburst]
    · have hi' : i < ds.length := by rwa [hlen]
      have hget : ds.getD i Draws.none = ds[i] := by simp [hi']
      change (ds.getD i Draws.none).InRange env gens
      rw [hget]
      exact hds _ (List.getElem_mem hi')

/-- **A run that draws its numbers is a run of the transmit loop.** -/
theorem drawn_simulates : ∀ (inputs : List TransmitInput) {s : DrawnState}, RandRun s.rand →
    ∃ inputs', inputs'.length = inputs.length ∧
      (final (drawnStep env gens) (some s) inputs).map DrawnState.tx
        = some (final (transmitStep env) s.tx inputs') ∧
      trace (drawnStep env gens) (some s) inputs = trace (transmitStep env) s.tx inputs'
  | [], s, _ => ⟨[], rfl, rfl, rfl⟩
  | inp :: inputs, s, h => by
    obtain ⟨draws, s', he, htx, hrand, -⟩ := drawnStep_simulates hgens h inp
    obtain ⟨inputs', hlen, hfinal, htrace⟩ := drawn_simulates inputs hrand
    refine ⟨{ inp with draws := draws } :: inputs', ?_, ?_, ?_⟩
    · rw [List.length_cons, List.length_cons, hlen]
    · rw [final_cons, final_cons, he, ← htx]
      exact hfinal
    · rw [trace_cons, trace_cons, he, ← htx]
      exact congrArg _ htrace

end

/-! ## The packets -/

section
variable {env : ClientEnv} {dstIp : UInt32} {dstPort : UInt16} {info : PreparePacketInfo}

/-- What the draws leave in a packet. -/
def DrawnPacket (env : ClientEnv) (info : PreparePacketInfo) (draws : Draws) (pkt : Mbuf) : Prop :=
  ∃ info' view, selectClientAddr info draws.rank = some info' ∧
    decodeFrame pkt.data pkt.dataLen = some view ∧
    view.ip.srcIp = info'.srcIp ∧ view.transport.srcPort = info'.srcPort ∧
    (env.build.payloadNumber = true → load64 pkt.data view.payload = UInt64.ofInt (draws.num - 1))

/-- Where the builders put the payload, and the source they write. -/
theorem preparePacket_view {build : ClientBuild} {katran : UInt32} {draws : Draws}
    {id payload : Nat} {mem m : Mem} {buf : Mbuf} {info' : PreparePacketInfo}
    (h : preparePacket build katran info draws (Mbuf.alloc id mem)
      = some (buf, info', some payload)) (hm : ∀ a, a < payload → m a = buf.data a) :
    ∃ view, decodeFrame m buf.dataLen = some view ∧ view.ip.srcIp = info'.srcIp ∧
      view.transport.srcPort = info'.srcPort ∧ view.payload = payload := by
  unfold preparePacket at h
  split at h
  · obtain ⟨view, tcp, hview, hok, htrans, hsrc, -⟩ := prepareTcp_frameOk h hm
    refine ⟨view, hview, hok.ips.1, ?_, hok.payloadOff⟩
    rw [htrans]
    exact hsrc
  · obtain ⟨view, hview, hok, htrans⟩ := prepareUdp_frameOk h hm
    refine ⟨view, hview, hok.ips.1, ?_, hok.payloadOff⟩
    rw [htrans]
    rfl

/-- The number is in front of the payload. The text behind it does not reach back. -/
theorem load64_payloadRandomNum (rodata m : Mem) (payload : Nat) (len num : Int) :
    load64 (payloadRandomNum rodata m payload len num) payload = UInt64.ofInt (num - 1) := by
  rw [payloadRandomNum, payloadConstantNum, load64_store_of_disjoint (by omega), load64_store64]

/-- `pkt_info` is as the loop sets it back. -/
structure InfoReset (env : ClientEnv) (dstIp : UInt32) (dstPort : UInt16)
    (info : PreparePacketInfo) : Prop where
  srcIp : info.srcIp = env.cntx.srcIp
  srcPort : info.srcPort = env.cntx.srcPort
  dstIp : info.dstIp = dstIp
  dstPort : info.dstPort = dstPort

theorem burstPacket_drawn (hinfo : InfoReset env dstIp dstPort info) {draws : Draws} {id : Nat}
    {mem : Mem} {pkt : Mbuf} {info' : PreparePacketInfo}
    (h : burstPacket env dstIp dstPort info draws (Mbuf.alloc id mem) = some (pkt, info')) :
    info' = info ∧ DrawnPacket env info draws pkt := by
  rw [burstPacket] at h
  obtain ⟨⟨buf, sel, payload⟩, hprep, h⟩ := Option.bind_eq_some_iff.mp h
  obtain ⟨off, rfl, h⟩ := Option.bind_eq_some_iff.mp h
  cases h
  have hsel := preparePacket_selected hprep
  refine ⟨?_, sel, ?_⟩
  · rw [selectClientAddr_spec hsel, ← hinfo.srcIp, ← hinfo.srcPort, ← hinfo.dstIp, ← hinfo.dstPort]
  · obtain ⟨view, hview, hip, hport, hpayload⟩ :=
      preparePacket_view hprep fun a ha => @writePayload_below env.build draws off env.rodata
        buf.data env.cntx.payloadLength a ha
    refine ⟨view, hsel, hview, hip, hport, fun hnum => ?_⟩
    rw [hpayload]
    change load64 (writePayload env.build env.rodata buf.data off env.cntx.payloadLength draws) off
      = _
    rw [writePayload, if_pos hnum, load64_payloadRandomNum]

/-- **The packets of a burst.** Each has the draws of its own turn. -/
theorem buildBurst_drawn (hinfo : InfoReset env dstIp dstPort info) :
    ∀ {pairs : List (Draws × Mbuf)} {built : List Mbuf},
      (∀ p ∈ pairs, ∃ id mem, p.2 = Mbuf.alloc id mem) →
      buildBurst env dstIp dstPort info pairs = some built →
      ∀ pkt ∈ built, ∃ p ∈ pairs, DrawnPacket env info p.1 pkt := by
  intro pairs
  induction pairs with
  | nil =>
    intro built _ h
    cases h
    exact fun pkt hmem => absurd hmem List.not_mem_nil
  | cons p rest ih =>
    intro built hfresh h pkt hmem
    obtain ⟨draws, buf⟩ := p
    obtain ⟨id, mem, hbuf⟩ := hfresh _ List.mem_cons_self
    obtain rfl : buf = Mbuf.alloc id mem := hbuf
    rw [buildBurst] at h
    obtain ⟨⟨first, info'⟩, hpkt, h⟩ := Option.bind_eq_some_iff.mp h
    obtain ⟨tail, htail, h⟩ := Option.bind_eq_some_iff.mp h
    cases h
    obtain ⟨hsame, hdrawn⟩ := burstPacket_drawn hinfo hpkt
    rw [hsame] at htail
    rcases List.mem_cons.mp hmem with rfl | hmem
    · exact ⟨_, List.mem_cons_self, hdrawn⟩
    · obtain ⟨p, hp, hdrawn'⟩ :=
        ih (fun p hp => hfresh p (List.mem_cons_of_mem _ hp)) htail pkt hmem
      exact ⟨p, List.mem_cons_of_mem _ hp, hdrawn'⟩

end

/-! ## The run -/

/-- The packet comes from one of the addresses that were asked for, and the number it carries is
below the limit. -/
structure WithinConfig (env : ClientEnv) (pkt : Mbuf) : Prop where
  source : env.client.selectSrcIp = true → ∃ idx view,
    idx < env.client.uniqueClientAddresses.toNat ∧
    decodeFrame pkt.data pkt.dataLen = some view ∧
    view.ip.srcIp
      = env.cntx.srcIp + UInt32.ofNat (idx / env.client.uniqueClientPorts.toNat) ∧
    view.transport.srcPort
      = env.cntx.srcPort + UInt16.ofNat (idx % env.client.uniqueClientPorts.toNat)
  number : env.build.payloadNumber = true → ∃ (num : Nat) (view : FrameView),
    (num : Int) < env.client.maxNum ∧
    decodeFrame pkt.data pkt.dataLen = some view ∧
    load64 pkt.data view.payload = UInt64.ofNat num

/-- What `newGenerators` has built. -/
structure Generators.Built (env : ClientEnv) (gens : Generators) : Prop where
  usable : gens.Usable env
  addrs : env.client.selectSrcIp = true →
    gens.srcZipf.n = env.client.uniqueClientAddresses.toNat
  nums : env.build.payloadNumber = true → gens.zgen.n = env.client.maxNum

section
variable {env : ClientEnv} {gens : Generators}

theorem newGenerators_built {mem : ZipfBuild} {zipfArg : Nat}
    (hgens : newGenerators mem env.build env.client zipfArg = some gens)
    (haddrs : env.client.selectSrcIp = true → 1 ≤ env.client.uniqueClientAddresses.toNat ∧
      2 * (env.client.uniqueClientAddresses.toNat : Int) ≤ intMax)
    (hnums : env.build.payloadNumber = true →
      1 ≤ env.client.maxNum ∧ 2 * env.client.maxNum ≤ intMax) : gens.Built env := by
  have hint : intMax = 2147483647 := rfl
  -- one generator: if it is needed it is built, with its number of ranks
  have hone : ∀ {used : Bool} {n : Int} {s : Nat} {gen : ZipfGen},
      newZipfgenIf used mem n s = some gen →
      (used = true → 1 ≤ n ∧ 2 * n ≤ intMax) → used = true → gen.n = n ∧ gen.Usable := by
    intro used n s gen h hn hused
    obtain ⟨h1, hsum⟩ := hn hused
    obtain ⟨gen', hgen', hcount, husable⟩ := newZipfgen_usable mem s h1 hsum
    rw [newZipfgenIf, if_pos hused, hgen'] at h
    obtain rfl := Option.some.inj h
    exact ⟨hcount, husable⟩
  obtain ⟨srcZipf, hsrc, h⟩ := Option.bind_eq_some_iff.mp hgens
  obtain ⟨zgen, hzgen, h⟩ := Option.bind_eq_some_iff.mp h
  obtain rfl := Option.some.inj h
  have hwrap : env.client.selectSrcIp = true →
      wrapSigned 32 env.client.uniqueClientAddresses.toNat
        = env.client.uniqueClientAddresses.toNat := by
    intro hsel
    obtain ⟨h1, hsum⟩ := haddrs hsel
    exact Int.bmod_eq_of_le (by omega) (by omega)
  have hsrc' := hone hsrc fun hsel => by
    rw [hwrap hsel]
    have := haddrs hsel
    omega
  have hzgen' := hone hzgen hnums
  exact ⟨⟨fun hs => (hsrc' hs).2, fun hp => (hzgen' hp).2⟩,
    fun hs => (hsrc' hs).1.trans (hwrap hs), fun hp => (hzgen' hp).1⟩

/-- Draws in range make a packet within the configuration. -/
theorem DrawnPacket.withinConfig (hgens : gens.Built env) {serverEth : EtherAddr} {dstIp : UInt32}
    {dstPort tci : UInt16} {draws : Draws} {pkt : Mbuf} (hrange : draws.InRange env gens)
    (h : DrawnPacket env (pktInfo env.client env.cntx serverEth dstIp dstPort tci) draws pkt) :
    WithinConfig env pkt := by
  obtain ⟨info', view, hsel, hview, hip, hport, hnum⟩ := h
  have hint : intMax = 2147483647 := rfl
  refine ⟨fun hzipf => ?_, fun hpay => ?_⟩
  · obtain ⟨h1, hn⟩ := hrange.rank hzipf
    rw [hgens.addrs hzipf] at hn
    have haddr := env.client.uniqueClientAddresses.toNat_lt
    have hz : (pktInfo env.client env.cntx serverEth dstIp dstPort tci).clientAddressSelection
        = .zipfClientAddr := if_pos hzipf
    have hp : (pktInfo env.client env.cntx serverEth dstIp dstPort tci).countPort ≠ 0 := by
      intro hp
      rw [selectClientAddr_zero hz hp] at hsel
      cases hsel
    rw [selectClientAddr_zipf hz hp] at hsel
    obtain rfl := Option.some.inj hsel
    have hidx : (srcIdx draws.rank : Int) = draws.rank - 1 := by
      rw [srcIdx, toNat_uint32_ofInt]
      omega
    refine ⟨srcIdx draws.rank, view, by omega, hview, ?_, ?_⟩
    · rw [hip]
      simp [addrOfRank, pktInfo]
    · rw [hport]
      simp [addrOfRank, pktInfo]
  · obtain ⟨h1, hn⟩ := hrange.num hpay
    rw [hgens.nums hpay] at hn
    have hsum := (hgens.usable.zgen hpay).sum
    rw [hgens.nums hpay] at hsum
    refine ⟨(draws.num - 1).toNat, view, by omega, hview, ?_⟩
    have hlow := toNat_uint64_ofInt (draws.num - 1)
    rw [hnum hpay, ← UInt64.toNat_inj,
      UInt64.toNat_ofNat_of_lt' (by simp only [UInt64.size]; omega)]
    omega

/-- An iteration whose draws are in range sends packets within the configuration. -/
theorem transmitStep_withinConfig (hgens : gens.Built env) {st : TransmitState}
    {inp : TransmitInput}
    (hrange : ∀ i < env.cntx.batch.toNat, (inp.draws i).InRange env gens)
    {k qid : Nat} {taken : List Mbuf} {measured : Bool}
    (hmem : .tx k qid taken measured ∈ (transmitStep env st inp).2) :
    ∀ pkt ∈ taken, WithinConfig env pkt := by
  have hstep := transmitStep_window env st inp
  generalize (transmitStep env st inp).1 = st' at hstep
  generalize (transmitStep env st inp).2 = events at hstep hmem
  cases hstep with
  | idle _ => exact absurd hmem List.not_mem_nil
  | held _ _ he =>
    rcases he with rfl | ⟨bufs, rfl⟩
    · exact absurd hmem List.not_mem_nil
    · cases List.mem_singleton.mp hmem
  | @sent pool built qid' measured' _ rest _ _ hbuilt _ hrest he =>
    rw [he] at hmem
    have htx : taken = built.take (txBurst inp.willing env.cntx.batch.toNat) := by
      simp only [List.cons_append, List.nil_append, List.mem_cons, List.mem_append, List.mem_map,
        reduceCtorEq, and_false, exists_false, false_or, ClientEvent.tx.injEq] at hmem
      rcases hmem with ⟨-, -, rfl, -⟩ | hmem
      · rfl
      · obtain ⟨cycles, hdelay⟩ := hrest _ hmem
        cases hdelay
    intro pkt hpkt
    rw [htx] at hpkt
    have hreset : InfoReset env (env.cntx.dstIps.getD 0 0) (nextPort env.cntx st.dstPort).toUInt16
        (burstInfo env st) := ⟨rfl, rfl, rfl, rfl⟩
    obtain ⟨p, hp, hdrawn⟩ := buildBurst_drawn hreset
      (burstPairs_fresh env.cntx.batch.toNat pool inp.draws) hbuilt pkt (List.mem_of_mem_take hpkt)
    obtain ⟨j, hj, rfl⟩ := List.getElem_of_mem hp
    have hget := burstPairs_get env.cntx.batch.toNat pool inp.draws hj
    rw [List.get_eq_getElem] at hget
    rw [hget] at hdrawn
    rw [burstPairs_length] at hj
    exact DrawnPacket.withinConfig hgens (hrange j hj) hdrawn

end

/--
**Every packet of a client is within its configuration.** For the only worker of a client that has
not drawn before, with usable numbers of addresses and payload numbers and any natural exponent, and
whatever the timer, the pool and the driver do: a run is one of the transmit loop, no draw fails,
every packet that is handed to the driver comes from one of the addresses of `--zipf-client-addr`,
and with `_PAYLOAD_NUMBER` the number it carries is below `--max-num`.
-/
theorem client_draws_in_range (mem : ZipfBuild) (env : ClientEnv) (zipfArg : Nat)
    (gens : Generators) (hgens : newGenerators mem env.build env.client zipfArg = some gens)
    (haddrs : env.client.selectSrcIp = true → 1 ≤ env.client.uniqueClientAddresses.toNat ∧
      2 * (env.client.uniqueClientAddresses.toNat : Int) ≤ intMax)
    (hnums : env.build.payloadNumber = true →
      1 ≤ env.client.maxNum ∧ 2 * env.client.maxNum ≤ intMax)
    (tables : FlowTables) (now : UInt64) (inputs : List TransmitInput) :
    (∃ inputs', inputs'.length = inputs.length ∧
      (final (drawnStep env gens) (some (drawnInit env tables now)) inputs).map DrawnState.tx
        = some (final (transmitStep env) (transmitInit env tables now) inputs') ∧
      trace (drawnStep env gens) (some (drawnInit env tables now)) inputs
        = trace (transmitStep env) (transmitInit env tables now) inputs') ∧
    ∀ e ∈ trace (drawnStep env gens) (some (drawnInit env tables now)) inputs,
      ∀ k qid taken measured, e = .tx k qid taken measured →
        ∀ pkt ∈ taken, WithinConfig env pkt := by
  have hbuilt := newGenerators_built hgens haddrs hnums
  have hrun : Along (drawnStep env gens) (fun _ _ => True) (some (drawnInit env tables now))
      inputs := along_of_forall (fun _ _ => trivial) inputs _
  have hinit : ∃ s, some (drawnInit env tables now) = some s ∧ RandRun s.rand :=
    ⟨_, rfl, randRun_init⟩
  have hstep : ∀ s inp, (∃ s', s = some s' ∧ RandRun s'.rand) → True →
      ∃ s', (drawnStep env gens s inp).1 = some s' ∧ RandRun s'.rand := by
    rintro _ inp ⟨s, rfl, h⟩ -
    obtain ⟨draws, s', he, -, hrand, -⟩ := drawnStep_simulates hbuilt.usable h inp
    rw [he]
    exact ⟨s', rfl, hrand⟩
  refine ⟨drawn_simulates hbuilt.usable inputs randRun_init, ?_⟩
  refine trace_forall (fun s => ∃ s', s = some s' ∧ RandRun s'.rand) _ hstep ?_ hinit hrun
  rintro _ inp ⟨s, rfl, h⟩ - e hmem k qid taken measured rfl
  obtain ⟨draws, s', he, -, -, hrange⟩ := drawnStep_simulates hbuilt.usable h inp
  rw [he] at hmem
  rcases hrange with hnil | hrange
  · rw [hnil] at hmem
    exact absurd hmem List.not_mem_nil
  · exact transmitStep_withinConfig hbuilt hrange hmem

/-- Ten source addresses on five ports, and numbers below two million in the payload. -/
def numberClientEnv : ClientEnv := { zipfClientEnv with build := ⟨false, true, false⟩ }

/-- One iteration, in which the driver takes two packets. -/
def numberInput : TransmitInput where
  endTime := 1
  restartTime := 0
  pool := some fun i => (i, fun _ => 0)
  draws := fun _ => Draws.none
  willing := 2

theorem client_draws_in_range_sample : ∃ gens,
    newGenerators ⟨fun _ => 0, fun _ => 0⟩ numberClientEnv.build numberClientEnv.client 1
      = some gens ∧
    ∀ e ∈ trace (drawnStep numberClientEnv gens)
        (some (drawnInit numberClientEnv ⟨fun _ => 0, fun _ => 0⟩ 0)) [numberInput, numberInput],
      ∀ k qid taken measured, e = .tx k qid taken measured →
        ∀ pkt ∈ taken, WithinConfig numberClientEnv pkt := by
  obtain ⟨ten, hten, -⟩ :=
    newZipfgen_usable ⟨fun _ => 0, fun _ => 0⟩ 1 (show (1 : Int) ≤ 10 by decide) (by decide)
  obtain ⟨limit, hlimit, -⟩ :=
    newZipfgen_usable ⟨fun _ => 0, fun _ => 0⟩ 0 (show (1 : Int) ≤ 2000000 by decide) (by decide)
  have hgens : newGenerators ⟨fun _ => 0, fun _ => 0⟩ numberClientEnv.build numberClientEnv.client 1
      = some ⟨ten, limit⟩ := by
    have hcount : wrapSigned 32 numberClientEnv.client.uniqueClientAddresses.toNat = 10 := by
      decide
    have hmax : numberClientEnv.client.maxNum = 2000000 := rfl
    have hused : numberClientEnv.client.selectSrcIp = true ∧
        numberClientEnv.build.payloadNumber = true := ⟨rfl, rfl⟩
    simp only [newGenerators, newZipfgenIf, hcount, hmax, hused, if_true, hten, hlimit,
      Option.bind_eq_bind, Option.bind_some]
    rfl
  exact ⟨⟨ten, limit⟩, hgens, (client_draws_in_range _ numberClientEnv 1 _ hgens
    (fun _ => by decide) (fun _ => by decide) ⟨fun _ => 0, fun _ => 0⟩ 0 _).2⟩

end DpdkEcho
