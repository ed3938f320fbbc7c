import SocksProxy.Session

/-!
# A network that follows a script

The script says what look-ups find, which connections and listeners succeed,
and who connects to a listener. Every connected socket has a far end, through
which a test sends octets and reads what arrives. Nothing waits but a read
without input and an accept without anyone who connects.
-/

namespace SocksProxy

abbrev Reported := Except Errno SocketAddress

inductive Side where
  | client
  | target
  deriving DecidableEq, Repr

/-- A connection made to a listener: the peer that accepting it tells, the addresses that
the socket reports later, and the side that it is named for. -/
structure Arrival where
  peer : SocketAddress
  laterPeer : Reported
  laterLocal : Reported
  side : Side

structure Script where
  hosts : List (Text × List IpAddress)
  connections : List (Text × Except Errno Reported)
  /-- By socket address: whether a listener succeeds, its own address then, and what is
  there to accept from the start. -/
  listeners : List (Text × Except Errno (Reported × List (Except Errno Arrival)))

structure Socket where
  name : Text
  peer : Reported
  self : Reported
  arrived : Bytes
  inputEnded : Bool
  readFailure : Option Errno
  /-- A failure of writes that exceed so many more octets. -/
  writeFailure : Option (Errno × Nat)
  refusing : Bool
  gone : Bool
  /-- Whether this end has been closed, or shut down for writing. -/
  closed : Bool
  /-- The octets taken by the far end since the last report, the latest first. -/
  taken : List Bytes
  endReported : Bool

namespace Socket

def opened (name : Text) (peer self : Reported) : Socket where
  name := name
  peer := peer
  self := self
  arrived := []
  inputEnded := false
  readFailure := none
  writeFailure := none
  refusing := false
  gone := false
  closed := false
  taken := []
  endReported := false

/-- Input that is left is received before the end of the input is. -/
def receive (limit : Nat) (s : Socket) :
    Option (OctetStream.Answer (.receive limit)) × Socket :=
  match s.readFailure with
  | some e => (some (.error (.reported e)), s)
  | none =>
    if !s.arrived.isEmpty then
      (some (.ok ⟨s.arrived.take limit, List.length_take_le limit s.arrived⟩),
        { s with arrived := s.arrived.drop limit })
    else if s.inputEnded || s.gone then (some (.ok ⟨[], Nat.zero_le _⟩), s)
    else (none, s)

/-- A write is taken whole or fails. -/
def send (octets : Bytes) (s : Socket) : Except IoError Unit × Socket :=
  match s.writeFailure with
  | some (e, room) =>
    if room < octets.length then (.error (.reported e), s)
    else deliver { s with writeFailure := some (e, room - octets.length) }
  | none => deliver s
where
  deliver (s : Socket) : Except IoError Unit × Socket :=
    if s.refusing || s.gone then (.error (.reported .epipe), s)
    else (.ok (), { s with taken := octets :: s.taken })

def isOpen (s : Socket) : Bool := !s.closed && !s.gone

def news (s : Socket) : Bytes × Bool :=
  (s.taken.reverse.flatten, s.closed && !s.gone && !s.refusing && !s.endReported)

def reported (s : Socket) : Socket :=
  { s with taken := [], endReported := s.endReported || s.news.2 }

end Socket

structure Listener where
  self : Reported
  arrivals : List (Except Errno Arrival)
  closed : Bool

structure Network where
  script : Script
  sockets : List Socket
  listeners : List Listener
  clients : Nat
  targets : Nat
  /-- What has been asked of the system since the last report, the latest first. -/
  events : List Text

namespace Network

def start (script : Script) : Network := ⟨script, [], [], 0, 0, []⟩

def record (event : Text) (network : Network) : Network :=
  { network with events := event :: network.events }

def addSocket (side : Side) (peer self : Reported) (network : Network) : Nat × Network :=
  let index := network.sockets.length
  match side with
  | .client =>
    let name := "client".toList ++ Decimal.text network.clients
    (index, { network with
      sockets := network.sockets ++ [.opened name peer self], clients := network.clients + 1 })
  | .target =>
    let name := "target".toList ++ Decimal.text network.targets
    (index, { network with
      sockets := network.sockets ++ [.opened name peer self], targets := network.targets + 1 })

def addListener (self : Reported) (arrivals : List (Except Errno Arrival)) (network : Network) :
    Nat × Network :=
  (network.listeners.length,
    { network with listeners := network.listeners ++ [⟨self, arrivals, false⟩] })

def setSocket (index : Nat) (s : Socket) (network : Network) : Network :=
  { network with sockets := network.sockets.set index s }

def closeSocket (index : Nat) (network : Network) : Network :=
  { network with sockets := network.sockets.modify index fun s => { s with closed := true } }

def closeListener (index : Nat) (network : Network) : Network :=
  { network with
    listeners := network.listeners.modify index fun l => { l with closed := true } }

def noSocket : IoError := .reported .enotsock

def receive (index limit : Nat) (network : Network) :
    Option (OctetStream.Answer (.receive limit)) × Network :=
  match network.sockets[index]? with
  | none => (some (.error noSocket), network)
  | some s =>
    let (answer, s) := s.receive limit
    (answer, network.setSocket index s)

def send (index : Nat) (octets : Bytes) (network : Network) :
    Option (OctetStream.Answer (.send octets)) × Network :=
  match network.sockets[index]? with
  | none => (some (.error noSocket), network)
  | some s =>
    match s.send octets with
    | (.error e, s) => (some (.error e), network.setSocket index s)
    | (.ok (), s) => (some (.ok ⟨octets.length, Nat.le_refl _⟩), network.setSocket index s)

def answer {α : Type} : Except Errno α → Except IoError α
  | .error e => .error (.reported e)
  | .ok a => .ok a

def peer (index : Nat) (network : Network) : Except IoError SocketAddress :=
  match network.sockets[index]? with
  | none => .error noSocket
  | some s => answer s.peer

def self (index : Nat) (network : Network) : Except IoError SocketAddress :=
  match network.sockets[index]? with
  | none => .error noSocket
  | some s => answer s.self

def listenerSelf (index : Nat) (network : Network) : Except IoError SocketAddress :=
  match network.listeners[index]? with
  | none => .error noSocket
  | some l => answer l.self

/-- A name that the script does not give is not found. -/
def lookup (name : Text) (network : Network) : Except IoError (List IpAddress) × Network :=
  let network := network.record ("resolve ".toList ++ name)
  match network.script.hosts.lookup name with
  | none => (.error (.raised .uncategorized), network)
  | some ips => (.ok ips, network)

def connect (a : SocketAddress) (network : Network) : Except IoError Nat × Network :=
  let network := network.record ("connect ".toList ++ a.text)
  match network.script.connections.lookup a.text with
  | none => (.error (.reported .econnrefused), network)
  | some (.error e) => (.error (.reported e), network)
  | some (.ok self) =>
    let (index, network) := network.addSocket .target (.ok a) self
    (.ok index, network)

def listen (a : SocketAddress) (network : Network) : Except IoError Nat × Network :=
  let network := network.record ("bind ".toList ++ a.text)
  match network.script.listeners.lookup a.text with
  | none => (.error (.reported .eaddrnotavail), network)
  | some (.error e) => (.error (.reported e), network)
  | some (.ok (self, arrivals)) =>
    let (index, network) := network.addListener self arrivals
    (.ok index, network)

def accept (index : Nat) (network : Network) :
    Option (Except IoError (SocketAddress × Nat)) × Network :=
  match network.listeners[index]? with
  | none => (some (.error noSocket), network)
  | some l =>
    match l.arrivals with
    | [] => (none, network)
    | outcome :: rest =>
      let network := { network with
        listeners := network.listeners.set index { l with arrivals := rest } }
      match outcome with
      | .error e => (some (.error (.reported e)), network)
      | .ok arrival =>
        let (index, network) :=
          network.addSocket arrival.side arrival.laterPeer arrival.laterLocal
        (some (.ok (arrival.peer, index)), network)

def mostProbeSeconds : Nat := 32767

def takes : SocketOption → Bool
  | .keepalive => true
  | .idle seconds | .interval seconds => 1 ≤ seconds && seconds ≤ mostProbeSeconds

def setNamedOption (name : Text) (option : SocketOption) (network : Network) :
    Except IoError Unit × Network :=
  let network := network.record ("keepalive ".toList ++ name ++ ' ' :: option.text)
  if takes option then (.ok (), network) else (.error (.reported .einval), network)

def setOption (index : Nat) (option : SocketOption) (network : Network) :
    Except IoError Unit × Network :=
  match network.sockets[index]? with
  | none => (.error noSocket, network)
  | some s => network.setNamedOption s.name option

def provideNamed (name : Text) : Provider Keepalive.interface Network
  | .set option, network =>
    let (answer, network) := network.setNamedOption name option
    (some answer, network)

inductive FarStep where
  | send (octets : Bytes)
  | endInput
  | close
  | failReads (errno : Errno)
  | failWrites (errno : Errno) (after : Nat)
  | refuse

/-- A far end that has been closed by either side does nothing more. -/
def FarStep.apply (step : FarStep) (s : Socket) : Socket :=
  if !s.isOpen then s
  else match step with
    | .send octets => if s.inputEnded then s else { s with arrived := s.arrived ++ octets }
    | .endInput => { s with inputEnded := true }
    | .close => { s with gone := true }
    | .failReads e => { s with readFailure := some e }
    | .failWrites e after => { s with writeFailure := some (e, after) }
    | .refuse => { s with refusing := true }

def farStep (name : Text) (step : FarStep) (network : Network) : Network :=
  { network with
    sockets := network.sockets.map fun s => if s.name = name then step.apply s else s }

def arrive (index : Nat) (outcome : Except Errno Arrival) (network : Network) : Network :=
  { network with
    listeners := network.listeners.modify index fun l =>
      if l.closed then l else { l with arrivals := l.arrivals ++ [outcome] } }

inductive Step where
  | nothing
  | farEnd (name : Text) (step : FarStep)
  | arrive (listener : Nat) (outcome : Except Errno Arrival)

def Step.apply (step : Step) (network : Network) : Network :=
  match step with
  | .nothing => network
  | .farEnd name step => network.farStep name step
  | .arrive listener outcome => network.arrive listener outcome

structure News where
  events : List Text
  ends : List (Text × Bytes × Bool)

def report (network : Network) : News × Network :=
  let ends := network.sockets.filterMap fun s =>
    let (octets, ended) := s.news
    if octets.isEmpty && !ended then none else some (s.name, octets, ended)
  (⟨network.events.reverse, ends⟩,
    { network with events := [], sockets := network.sockets.map Socket.reported })

end Network

end SocksProxy
