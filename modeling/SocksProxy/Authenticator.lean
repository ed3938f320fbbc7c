import SocksProxy.Connection

/-!
# Authenticators

An authenticator has the method that is negotiated for it and a subnegotiation
that follows. Without authentication nothing follows. With a username and a
password the client learns the outcome before the subnegotiation fails.
-/

namespace SocksProxy

inductive Authenticator where
  | none
  | password (username password : Text)
  deriving DecidableEq, Repr

namespace Authenticator

open Connection

def method : Authenticator → AuthMethod
  | .none => .none
  | .password .. => .password

def verifies (user secret : Text) (credentials : Credentials) : Bool :=
  credentials.username == Utf8.encode user && credentials.password == Utf8.encode secret

def subnegotiation : Authenticator → Action Connection.interface Unit
  | .none => pure ()
  | .password user secret => do
    let credentials ← onStream (Credentials.receive scratchSize)
    if verifies user secret credentials then
      send (.subnegotiation true)
    else
      send (.subnegotiation false)
      throw .authenticationFailed

end Authenticator

end SocksProxy
