import SocksProxy.AddressRecord
import SocksProxy.OctetStream

/-!
# The messages of the server

The method selected, the outcome of a subnegotiation and the reply to a
command. A reply is written at the start of a buffer, and sent from there. The
flush that follows sends nothing more and is taken to succeed; it is left out.
-/

namespace SocksProxy

inductive Reply where
  | method (selected : AuthMethod)
  | subnegotiation (accepted : Bool)
  | command (status : ReplyStatus) (bound : Address)
  deriving DecidableEq, Repr

namespace Reply

/-- The reply to a command, of which the status and the address may be left unset. -/
def ofCommand (status : Option ReplyStatus) (bound : Option Address) : Reply :=
  .command (status.getD .generalFailure) (bound.getD .unspecified)

def failure (status : ReplyStatus) : Reply := ofCommand (some status) none

def commandHeader (status : ReplyStatus) : Bytes := [protocolVersion, status.code, 0]

/-- Writes a reply at the start of a buffer. The header of a reply to a command may have
been written when its address cannot be. -/
def encodeInto (reply : Reply) (buffer : Bytes) : Bytes × Except Error Nat :=
  match reply with
  | .method selected => writeInto buffer [protocolVersion, selected.code]
  | .subnegotiation accepted =>
    writeInto buffer [subnegotiationVersion, if accepted then 0 else 1]
  | .command status bound =>
    match writeInto buffer (commandHeader status) with
    | (buffer, .error e) => (buffer, .error e)
    | (buffer, .ok header) =>
      let (rest, written) := bound.encodeInto (buffer.drop header)
      (buffer.take header ++ rest, written.map (header + ·))

def send (reply : Reply) : Action OctetStream.interface Unit := do
  let (buffer, written) := reply.encodeInto (List.replicate scratchSize 0)
  let length ← ExceptT.mk (.done written)
  OctetStream.sendAll (buffer.take length)

end Reply

end SocksProxy
