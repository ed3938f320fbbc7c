import SocksProxy.Configuration

/-!
# The command line

Arguments are read from left to right. An option may have its value attached or
as the next argument; the latter is looked at only when the option is settled,
that is before the next option or flag takes effect and at the end. An argument
that is not known is refused before anything is settled.
-/

namespace SocksProxy.CommandLine

inductive Refusal where
  | displayHelp
  | displayVersion
  | unknownArgument
  | invalidValue
  | valueValidation
  | argumentConflict
  | tooManyValues
  deriving DecidableEq, Repr

def Refusal.name : Refusal → Text
  | .displayHelp => "DisplayHelp".toList
  | .displayVersion => "DisplayVersion".toList
  | .unknownArgument => "UnknownArgument".toList
  | .invalidValue => "InvalidValue".toList
  | .valueValidation => "ValueValidation".toList
  | .argumentConflict => "ArgumentConflict".toList
  | .tooManyValues => "TooManyValues".toList

def usage : String :=
  "options: -a, --bind-addr ADDRESS; -u, --username NAME; -p, --password PASSWORD; " ++
    "-k, --keepalive-secs SECONDS; --allow-bind; --response-host HOST; " ++
    "-h, --help; -V, --version"

def version : String := "0.1.0"

inductive ValueOption where
  | bindAddress
  | username
  | password
  | keepalive
  | responseHost
  deriving DecidableEq, Repr

inductive Flag where
  | allowBind
  | help
  | version
  deriving DecidableEq, Repr

/-- What has been given so far. -/
structure Options where
  bindAddress : Option Text := none
  username : Option Text := none
  password : Option Text := none
  /-- In seconds. -/
  keepalive : Option Nat := none
  responseHost : Option Text := none
  allowBind : Bool := false
  deriving DecidableEq, Repr

def named? (t : Text) : Option (ValueOption ⊕ Flag) :=
  [("bind-addr", .inl .bindAddress), ("username", .inl .username), ("password", .inl .password),
    ("keepalive-secs", .inl .keepalive), ("response-host", .inl .responseHost),
    ("allow-bind", .inr .allowBind), ("help", .inr .help), ("version", .inr .version)].findSome?
    fun ((name : String), meaning) => if name.toList = t then some meaning else none

def lettered? : Char → Option (ValueOption ⊕ Flag)
  | 'a' => some (.inl .bindAddress)
  | 'u' => some (.inl .username)
  | 'p' => some (.inl .password)
  | 'k' => some (.inl .keepalive)
  | 'h' => some (.inr .help)
  | 'V' => some (.inr .version)
  | _ => none

def mostSeconds : Nat := 18446744073709551615

def seconds? : Text → Option Nat
  | '+' :: digits => Decimal.parse? mostSeconds digits
  | t => Decimal.parse? mostSeconds t

def place {α : Type} (there : Option α) (value : α) : Except Refusal (Option α) :=
  match there with
  | some _ => .error .argumentConflict
  | none => .ok (some value)

namespace Options

def set (options : Options) (option : ValueOption) (value : Text) : Except Refusal Options :=
  match option with
  | .bindAddress => do
    return { options with bindAddress := ← place options.bindAddress value }
  | .username => do return { options with username := ← place options.username value }
  | .password => do return { options with password := ← place options.password value }
  | .responseHost => do
    return { options with responseHost := ← place options.responseHost value }
  | .keepalive =>
    match options.keepalive, seconds? value with
    | some _, _ => .error .argumentConflict
    | none, none => .error .valueValidation
    | none, some seconds => .ok { options with keepalive := some seconds }

def raise (options : Options) (flag : Flag) : Except Refusal Options :=
  match flag with
  | .help => .error .displayHelp
  | .version => .error .displayVersion
  | .allowBind =>
    if options.allowBind then .error .argumentConflict
    else .ok { options with allowBind := true }

def settings (options : Options) : Settings where
  listen := options.bindAddress.getD "0.0.0.0:1080".toList
  credentials :=
    if options.username.isSome || options.password.isSome then
      some (options.username.getD [], options.password.getD [])
    else none
  keepalive := options.keepalive.getD 0 * 1000
  allowed := if options.allowBind then [.connect, .bind] else [.connect]
  announcement := options.responseHost.map Announcement.host

end Options

/-- What has been given, and the option that is not settled, with its value if that has
been seen. -/
structure Progress where
  options : Options
  pending : Option (ValueOption × Option Text)

def settle (progress : Progress) : Except Refusal Options :=
  match progress.pending with
  | none => .ok progress.options
  | some (_, none) => .error .invalidValue
  | some (option, some value) => progress.options.set option value

def take (progress : Progress) (meaning : ValueOption ⊕ Flag) (attached : Option Text) :
    Except Refusal Progress :=
  match meaning, attached with
  | .inr _, some _ => .error .tooManyValues
  | .inr flag, none => do return ⟨← (← settle progress).raise flag, none⟩
  | .inl option, some value => do return ⟨← (← settle progress).set option value, none⟩
  | .inl option, none => do return ⟨← settle progress, some (option, none)⟩

def takeLong (progress : Progress) (t : Text) : Except Refusal Progress :=
  let (name, attached) :=
    match cut '=' t with
    | some (name, value) => (name, some value)
    | none => (t, none)
  match named? name with
  | none => .error .unknownArgument
  | some meaning => take progress meaning attached

/-- Takes an argument that begins with a hyphen and a letter. What follows the letter is
the value; neither flag with a letter is one that anything can follow. -/
def takeShort (progress : Progress) (letter : Char) (rest : Text) : Except Refusal Progress :=
  match lettered? letter, rest with
  | none, _ => .error .unknownArgument
  | some (.inr flag), _ => take progress (.inr flag) none
  | some (.inl option), [] => take progress (.inl option) none
  | some (.inl option), '=' :: value => take progress (.inl option) (some value)
  | some (.inl option), value => take progress (.inl option) (some value)

def takeValue (progress : Progress) (value : Text) : Except Refusal Progress :=
  match progress.pending with
  | some (option, none) => .ok { progress with pending := some (option, some value) }
  | _ => .error .unknownArgument

def takeArgument (progress : Progress) (argument : Text) : Except Refusal Progress :=
  match argument with
  | '-' :: '-' :: t => takeLong progress t
  | '-' :: letter :: rest => takeShort progress letter rest
  | value => takeValue progress value

/-- Reads the arguments. Nothing may follow two hyphens that stand alone. -/
def read : Progress → List Text → Except Refusal Options
  | progress, [] => settle progress
  | progress, argument :: rest =>
    if argument = ['-', '-'] then
      if rest.isEmpty then settle progress else .error .unknownArgument
    else do read (← takeArgument progress argument) rest

def parse (arguments : List Text) : Except Refusal Settings := do
  return (← read ⟨{}, none⟩ arguments).settings

end SocksProxy.CommandLine
