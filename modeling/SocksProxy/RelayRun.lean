import SocksProxy.NetworkRelay

/-!
# A relay under test

A relay between a client and a target, whose far ends a test uses step by step.
After each step the relay goes on until it waits, and what the far ends have
seen is reported.
-/

namespace SocksProxy

structure RelayRun where
  network : Network
  relay : Relay

namespace RelayRun

def start (peer self : SocketAddress) : RelayRun :=
  let network := Network.start ⟨[], [], []⟩
  let (_, network) := network.addSocket .client (.ok peer) (.ok self)
  let (_, network) := network.addSocket .target (.ok peer) (.ok self)
  ⟨network, .start⟩

/-- Takes a step. The result of the relay is given when it becomes over, and both sockets
are closed then. -/
def step (run : RelayRun) (step : Network.Step) :
    Network.News × Option (Except Error (Nat × Nat)) × RelayRun :=
  let network := step.apply run.network
  if run.relay.result?.isSome then
    let (news, network) := network.report
    (news, none, ⟨network, run.relay⟩)
  else
    let (relay, network) := network.settleRelay 0 1 run.relay
    let network :=
      if relay.result?.isSome then (network.closeSocket 0).closeSocket 1 else network
    let (news, network) := network.report
    (news, relay.result?.map (·.mapError .io), ⟨network, relay⟩)

end RelayRun

end SocksProxy
