import SocksProxy.NetworkRelay

/-!
# Sessions on a scripted network

A session runs until it is done or waits. What remains of it is kept with the
sockets that it has opened and with the relay that it is waiting for.
-/

namespace SocksProxy

/-- Where a session stands in a network: its sockets, and its relay if there is one. -/
structure Place where
  network : Network
  client : Nat
  target : Option Nat
  listener : Option Nat
  relay : Option Relay

namespace Place

def missing {α : Type} (place : Place) : Option (Except IoError α) × Place :=
  (some (.error Network.noSocket), place)

def provideClient : Provider Connection.interface Place
  | .stream (.receive limit), place =>
    let (answer, network) := place.network.receive place.client limit
    (answer, { place with network })
  | .stream (.send octets), place =>
    let (answer, network) := place.network.send place.client octets
    (answer, { place with network })
  | .started _, place => (some (), place)
  | .entered _, place => (some (), place)
  | .relay, place =>
    match place.target with
    | none => place.missing
    | some target =>
      let (relay, network) :=
        place.network.settleRelay place.client target (place.relay.getD .start)
      (relay.result?, { place with network, relay := some relay })

def opened (result : Except IoError Nat × Network) (place : Place)
    (remember : Place → Nat → Place) : Option (Except IoError Unit) × Place :=
  let place := { place with network := result.2 }
  match result.1 with
  | .error e => (some (.error e), place)
  | .ok index => (some (.ok ()), remember place index)

def closeRole (place : Place) : Session.Role → Place
  | .client => { place with network := place.network.closeSocket place.client }
  | .target =>
    match place.target with
    | none => place
    | some index => { place with network := place.network.closeSocket index, target := none }
  | .listener =>
    match place.listener with
    | none => place
    | some index => { place with network := place.network.closeListener index, listener := none }

def provide : Provider Session.interface Place
  | .client request, place => provideClient request place
  | .clientPeer, place => (some (place.network.peer place.client), place)
  | .clientLocal, place => (some (place.network.self place.client), place)
  | .lookup name, place =>
    let (answer, network) := place.network.lookup name
    (some answer, { place with network })
  | .connect a, place =>
    place.opened (place.network.connect a) fun place index => { place with target := some index }
  | .listen a, place =>
    place.opened (place.network.listen a) fun place index => { place with listener := some index }
  | .accept, place =>
    match place.listener with
    | none => place.missing
    | some listener =>
      match place.network.accept listener with
      | (none, network) => (none, { place with network })
      | (some (.error e), network) => (some (.error e), { place with network })
      | (some (.ok (peer, index)), network) =>
        (some (.ok peer), { place with network, target := some index })
  | .targetLocal, place =>
    match place.target with
    | none => place.missing
    | some index => (some (place.network.self index), place)
  | .listenerLocal, place =>
    match place.listener with
    | none => place.missing
    | some index => (some (place.network.listenerSelf index), place)
  | .setOption option, place =>
    match place.target with
    | none => place.missing
    | some index =>
      let (answer, network) := place.network.setOption index option
      (some answer, { place with network })
  | .close role, place => (some (), place.closeRole role)

end Place

/-- What remains of a session, and where it stands apart from the network. -/
structure SessionTask where
  program : Program Session.interface (Except Error Unit)
  client : Nat
  target : Option Nat
  listener : Option Nat
  relay : Option Relay

namespace SessionTask

def start (config : Configuration) (client : Nat) : SessionTask :=
  ⟨(session config).run, client, none, none, none⟩

def run (task : SessionTask) (network : Network) : SessionTask × Network :=
  let (program, place) :=
    task.program.run Place.provide ⟨network, task.client, task.target, task.listener, task.relay⟩
  (⟨program, place.client, place.target, place.listener, place.relay⟩, place.network)

def result? (task : SessionTask) : Option (Except Error Unit) :=
  match task.program with
  | .done result => some result
  | .ask .. => none

end SessionTask

end SocksProxy
