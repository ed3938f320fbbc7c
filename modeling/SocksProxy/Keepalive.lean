import SocksProxy.Program

/-!
# Keepalive probes

Probes are configured by one interval in milliseconds, zero for none. A socket
gets the options in whole seconds, one after the other until one is refused.
-/

namespace SocksProxy

inductive SocketOption where
  | keepalive
  | idle (seconds : Nat)
  | interval (seconds : Nat)
  deriving DecidableEq, Repr

def SocketOption.text : SocketOption → Text
  | .keepalive => "on 1".toList
  | .idle seconds => "idle ".toList ++ Decimal.text seconds
  | .interval seconds => "interval ".toList ++ Decimal.text seconds

namespace Keepalive

inductive Request where
  | set (option : SocketOption)

@[reducible] def Answer : Request → Type
  | .set _ => Except IoError Unit

abbrev interface : Interface := ⟨Request, Answer⟩

def mostSeconds : Nat := 2147483647

/-- The options that an interval in milliseconds asks for, in order. -/
def options (interval : Nat) : List SocketOption :=
  if interval = 0 then []
  else
    let seconds := min (interval / 1000) mostSeconds
    [.keepalive, .idle seconds, .interval seconds]

def setAll : List SocketOption → Action interface Unit
  | [] => pure ()
  | option :: rest => do
    Action.attempt (I := interface) (.set option) id
    setAll rest

def apply (interval : Nat) : Action interface Unit := setAll (options interval)

/-- The text of an interval: seconds with up to three decimals, or milliseconds below
one second. -/
def intervalText (interval : Nat) : Text :=
  let seconds := interval / 1000
  let thousandths := interval % 1000
  if seconds = 0 then Decimal.text thousandths ++ ['m', 's']
  else if thousandths = 0 then Decimal.text seconds ++ ['s']
  else
    let digits := (Decimal.text (1000 + thousandths)).drop 1
    Decimal.text seconds ++ '.' :: (digits.reverse.dropWhile (· = '0')).reverse ++ ['s']

end Keepalive

end SocksProxy
