import SocksProxy.Connection
import SocksProxy.MemoryStream

/-!
# Connections over streams in memory

Here an operation can be left waiting. The connection then stands at the stage
that it had reached, with what has been read and written so far.
-/

namespace SocksProxy

structure MemoryConnection where
  client : MemoryStream
  target : MemoryStream
  stage : Stage

namespace MemoryConnection

def clientEnd : Endpoint MemoryConnection :=
  MemoryStream.endpoint (·.client) fun connection client => { connection with client }

def targetEnd : Endpoint MemoryConnection :=
  MemoryStream.endpoint (·.target) fun connection target => { connection with target }

/-- A bound for the events of a relay: each octet is received and taken once. -/
def eventBound (connection : MemoryConnection) : Nat :=
  2 * (connection.client.available + connection.target.available) + 4

def provide : Provider Connection.interface MemoryConnection
  | .stream request, connection =>
    let (answer, client) := connection.client.provide request
    (answer, { connection with client })
  | .started _, connection => (some (), connection)
  | .entered stage, connection => (some (), { connection with stage })
  | .relay, connection =>
    let (relay, connection) :=
      Relay.start.settle clientEnd targetEnd connection.eventBound connection
    (relay.result?, connection)

/-- Runs an operation. There is no result if it is left waiting. -/
def run {α : Type} (action : Action Connection.interface α) (connection : MemoryConnection) :
    Option (Except Error α) × MemoryConnection :=
  match action.run.run provide connection with
  | (.done result, connection) => (some result, connection)
  | (.ask .., connection) => (none, connection)

end MemoryConnection

end SocksProxy
