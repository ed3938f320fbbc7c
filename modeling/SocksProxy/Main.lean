import SocksProxy.CommandLine
import SocksProxy.Description

/-!
# The program

Reads the command line and shows the configuration that it gives.
-/

open SocksProxy

def main (arguments : List String) : IO UInt32 := do
  match CommandLine.parse (arguments.map String.toList) with
  | .ok settings =>
    IO.println (String.ofList settings.configuration.description)
    return 0
  | .error .displayHelp =>
    IO.println CommandLine.usage
    return 0
  | .error .displayVersion =>
    IO.println CommandLine.version
    return 0
  | .error refusal =>
    IO.eprintln (String.ofList refusal.name)
    IO.eprintln CommandLine.usage
    return 2
