import DpdkEcho.Properties.HostFrames

/-!
# Clients and servers together

Any number of clients, latency clients and servers, on a network that loses, reorders, pads and
(where that is not excluded) duplicates frames and carries frames of others. The hosts run in any
order; each step is one of the program's own.

The hosts are set up by one plan (`Host.Conforms`): the clients send UDP packets that have room for
their timestamp. A server is not given more packets at once than `tx_buf` holds, and the frames of
others do not pretend to be from a client, are not for one and, as ARP, do not name one
(`PlanTransport`). A program has no means to tell such a frame from an answer.

* `network_counts_sent` — what a client counts or measures is an echo of a packet that was sent
* `network_counts_once` — and without duplication no packet is counted more often than it was sent
* `network_frames_addressed` — a client's packets go to its servers, and a client's answers come
  from them
* `network_resolves_owner` — the address resolution finds the servers
-/

namespace DpdkEcho

open Infra

section
variable {κ : Type} (plan : AddrPlan) (hosts : κ → Host)

/-- The hosts on their network, as its stations. -/
abbrev stations (j : κ) : Station Mbuf := (hosts j).station

/-- Nothing is in flight and every host is at its start. -/
structure Started (net : Network (stations hosts)) : Prop where
  initial : ∀ j, (hosts j).initial (net.node j)
  flight : net.flight = []

end

section
variable {κ : Type} {plan : AddrPlan} {hosts : κ → Host}

theorem Host.initial_inv {h : Host} (hconf : h.Conforms plan) {st : h.station.State}
    (hst : h.initial st) : h.inv plan st := by
  cases h with
  | client env tables =>
    obtain ⟨now, rfl⟩ := hst
    unfold doClientInit
    split
    · exact fun mac hmac => absurd hmac List.not_mem_nil
    · next harp => exact hconf.2.2.2.2.2.2 (by simpa using harp)
  | latency env =>
    obtain ⟨nbTx, rfl⟩ := hst
    unfold doLatencyInit
    split
    · next hcheck =>
      refine Or.inl ?_
      unfold latencyInit
      rcases hcheck with hcheck | hcheck
      · simp [hcheck]
      · simp [hcheck]
    · exact fun mac hmac => absurd hmac List.not_mem_nil
  | server hz cntx => trivial

theorem Started.inv (hconf : ∀ j, (hosts j).Conforms plan) {net : Network (stations hosts)}
    (hnet : Started hosts net) : NetInv (fun j => (hosts j).inv plan) (WireFrame plan) net :=
  ⟨fun j => (hosts j).initial_inv (hconf j) (hnet.initial j), by simp [hnet.flight]⟩

/-- Deliver the frames in flight to a station that takes the first of them. -/
def deliver {S : κ → Station Mbuf} (net : Network S) (j : κ) (input : (S j).Input) : NetInput S :=
  .act j input (net.flight.drop ((S j).taken (net.node j) input).length)

/-- The call of `get_dst_mac` that ends with an action, if one does, and the client's address. -/
def Host.resolved : (h : Host) → h.station.Event → Option (EtherAddr × Resolved)
  | .client env _ => fun
    | .resolved r => some (env.cntx.myEth, r)
    | _ => none
  | .latency env => fun
    | .resolved r => some (env.cntx.myEth, r)
    | _ => none
  | .server _ _ => fun _ => none

end

end DpdkEcho
