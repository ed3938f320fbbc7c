import SocksProxy.Network
import SocksProxy.Relay

/-!
# Relays in a scripted network

A relay between two sockets of the network goes on until it is over or both of
its directions wait for input.
-/

namespace SocksProxy.Network

def endpoint (index : Nat) : Endpoint Network where
  receive limit network :=
    let (answer, network) := network.receive index limit
    (answer.map (·.map Subtype.val), network)
  send octets network :=
    let (answer, network) := network.send index octets
    (answer.map (·.map Subtype.val), network)
  close network := (some (.ok ()), network.closeSocket index)

/-- A bound for the events of a relay that go on without further input: each octet
that has arrived is received and taken once, and so is the rest of each chunk. -/
def relayBound (network : Network) (client target : Nat) : Nat :=
  let arrived (index : Nat) : Nat :=
    match network.sockets[index]? with
    | none => 0
    | some s => s.arrived.length
  2 * (arrived client + arrived target + Pipe.chunkSize) + 4

def settleRelay (network : Network) (client target : Nat) (relay : Relay) : Relay × Network :=
  relay.settle (endpoint client) (endpoint target) (network.relayBound client target) network

end SocksProxy.Network
