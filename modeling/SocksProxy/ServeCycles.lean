import SocksProxy.SocketAddress

/-!
# Serve cycles

A server serves in cycles, numbered from one. The register knows the latest
cycle, which of them the next close would cancel, and the address that the
latest one listens on while it lasts. A new cycle cancels the one before it,
and an old one that finishes late leaves the register alone. The numbers are
taken to stay below the bound of a word of 64 bits.
-/

namespace SocksProxy

structure ServeCycles where
  latest : Nat
  /-- The cycle that the next close cancels. -/
  running : Option Nat
  address : Option SocketAddress
  cancelled : List Nat
  deriving DecidableEq, Repr

namespace ServeCycles

def start : ServeCycles := ⟨0, none, none, []⟩

def close (cycles : ServeCycles) : ServeCycles :=
  { cycles with running := none, cancelled := cycles.running.toList ++ cycles.cancelled }

def begin (cycles : ServeCycles) (address : SocketAddress) : ServeCycles :=
  let latest := cycles.latest + 1
  { cycles.close with latest := latest, running := some latest, address := some address }

def finish (cycles : ServeCycles) (cycle : Nat) : ServeCycles :=
  if cycles.latest = cycle then { cycles with running := none, address := none } else cycles

def isCancelled (cycles : ServeCycles) (cycle : Nat) : Bool := cycles.cancelled.contains cycle

end ServeCycles

end SocksProxy
