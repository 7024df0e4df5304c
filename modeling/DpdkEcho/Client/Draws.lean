import DpdkEcho.Client.Transmit
import DpdkEcho.Zipf

/-!
# The numbers of the packets

`transmitStep` takes the numbers a packet depends on from outside. Here they come from where the
program takes them: all draws, whichever generator makes them, go through the one `myrand` of
`utils/zipf.c`, whose variables are static.

One worker draws here, as in a client on one core. The variables of `myrand`, and `zgen`, are shared
by all workers and no lock guards them: `_need_init` is cleared before the table is filled, so a
second worker may draw from a table that is not filled yet. `zipf_arg` is a natural number here, as
in `newZipfgen`.
-/

namespace DpdkEcho

open Infra

/-- `ptr->gen(ptr)`: `number_from_zipf_distribution` with its call of `myrand`. A turn of its loop
brings the bounds closer to each other, so the fuel is that of a search that ends; `none` is one
that does not. -/
def ZipfGen.gen (gen : ZipfGen) (st : RandState) : Option (RandState × Int) :=
  let (st, rnd) := myrand st
  (numberFromZipfDistribution (gen.n.toNat + 1) gen rnd).1.map fun rank => (st, rank)

/-- A draw that is made in some builds or configurations only. -/
def ZipfGen.genIf (gen : ZipfGen) (used : Bool) (st : RandState) : Option (RandState × Int) :=
  if used then gen.gen st else some (st, 0)

/-- `select_client_addr_info->src_zipf` and `zgen`. -/
structure Generators where
  srcZipf : ZipfGen
  zgen : ZipfGen

/-- A generator that is not built is not used. -/
def noZipfgen : ZipfGen := { cProbs := fun _ => 0, n := 0 }

/-- A generator that is built in some builds or configurations only. -/
def newZipfgenIf (used : Bool) (mem : ZipfBuild) (n : Int) (s : Nat) : Option ZipfGen :=
  if used then newZipfgen mem n s else some noZipfgen

/-- The generators that `do_client` builds before its loop: for the source addresses with
`--zipf-client-addr`, for the payload with `_PAYLOAD_NUMBER`. The number of addresses is a
`uint32_t`, the parameter an `int`. -/
def newGenerators (mem : ZipfBuild) (build : ClientBuild) (client : ClientConfig) (zipfArg : Nat) :
    Option Generators := do
  let srcZipf ← newZipfgenIf client.selectSrcIp mem
    (wrapSigned 32 client.uniqueClientAddresses.toNat) zipfArg
  let zgen ← newZipfgenIf build.payloadNumber mem client.maxNum 0
  return { srcZipf := srcZipf, zgen := zgen }

/-- The draws for a packet, in the order of the calls: the source address in
`_prepare_eth_vlan_ip`, the server id in `prepare_tcp`, the number in `payload_random_num`. -/
def drawPacket (env : ClientEnv) (gens : Generators) (timestamp : UInt64) (st : RandState) :
    Option (RandState × Draws) := do
  let (st, rank) ← gens.srcZipf.genIf env.client.selectSrcIp st
  let (st, srvId) :=
    if env.build.useTcp ∧ env.client.addKatranOpt > 0 then myrand st else (st, 0)
  let (st, num) ← gens.zgen.genIf env.build.payloadNumber st
  return (st, { rank := rank, myrand := srvId, timestamp := timestamp, num := num })

/-- The draws for a burst, one packet after the other. -/
def drawBurst (env : ClientEnv) (gens : Generators) :
    List UInt64 → RandState → Option (RandState × List Draws)
  | [], st => some (st, [])
  | timestamp :: rest, st => do
    let (st, draws) ← drawPacket env gens timestamp st
    let (st, others) ← drawBurst env gens rest st
    return (st, draws :: others)

/-- The variables of the transmit loop and those of the generators. -/
structure DrawnState where
  tx : TransmitState
  rand : RandState

/-- What a packet without draws would have. -/
def Draws.none : Draws := { rank := 0, myrand := 0, timestamp := 0, num := 0 }

/-- One iteration of the transmit loop that draws its own numbers. Of the draws of the input only
the timestamps are read. An iteration that does not get as far as a burst draws nothing, and a
search that does not end is the end of the run. -/
def drawnStep (env : ClientEnv) (gens : Generators) (s : Option DrawnState) (inp : TransmitInput) :
    Option DrawnState × List ClientEvent :=
  match s with
  | none => (none, [])
  | some s =>
    let r := transmitStep env s.tx inp
    if r.2.isEmpty then (some { s with tx := r.1 }, [])
    else
      let timestamps := (List.range env.cntx.batch.toNat).map fun i => (inp.draws i).timestamp
      match drawBurst env gens timestamps s.rand with
      | none => (none, [])
      | some (rand, draws) =>
        let r := transmitStep env s.tx { inp with draws := fun i => draws.getD i Draws.none }
        (some { tx := r.1, rand := rand }, r.2)

/-- The variables when the only worker enters its loop. The program has not drawn before. -/
def drawnInit (env : ClientEnv) (tables : FlowTables) (now : UInt64) : DrawnState where
  tx := transmitInit env tables now
  rand := randInit

end DpdkEcho
