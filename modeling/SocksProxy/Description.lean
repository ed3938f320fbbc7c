import SocksProxy.Configuration
import SocksProxy.QuotedText

/-!
# Descriptions for an operator

How a configuration, an authenticator and received credentials are shown in a
log. No description shows a password.
-/

namespace SocksProxy

def AuthMethod.description : AuthMethod → Text
  | .none => "None".toList
  | .password => "Password".toList
  | .unacceptable => "NoAcceptableMethod".toList

def Command.description : Command → Text
  | .connect => "Connect".toList
  | .bind => "Bind".toList
  | .udpAssociate => "UdpAssociate".toList
  | .other code => "Other(".toList ++ Decimal.text code.toNat ++ [')']

def describedFields (name : Text) (fields : List (String × Text)) : Text :=
  name ++ " \x7b ".toList ++
    joined [',', ' '] (fields.map fun (field, value) => field.toList ++ [':', ' '] ++ value) ++
    " \x7d".toList

/-- A description of a value with named fields of which some are not shown. -/
def describedPartly (name : Text) (fields : List (String × Text)) : Text :=
  name ++ " \x7b ".toList ++
    (fields.flatMap fun (field, value) => field.toList ++ [':', ' '] ++ value ++ [',', ' ']) ++
    "..".toList ++ " \x7d".toList

def Keepalive.description (interval : Nat) : Text :=
  let probes :=
    if interval = 0 then "None".toList
    else
      let time := "Some(".toList ++ intervalText interval ++ [')']
      "Some(".toList ++
        describedFields "TcpKeepalive".toList
          [("time", time), ("interval", time), ("retries", "None".toList)] ++ [')']
  describedFields "TcpConnectionOptions".toList [("keep_alive", probes)]

def Configuration.description (config : Configuration) : Text :=
  describedPartly "LurkServerConfig".toList [
    ("listen_addr", quoted config.listen),
    ("auth_method", config.authenticator.method.description),
    ("tcp_opts", Keepalive.description config.keepalive),
    ("allowed_commands",
      "\x7b".toList ++ joined [',', ' '] (config.allowed.map Command.description) ++ "\x7d".toList),
    ("address_rewriter", if config.announcement.isSome then "true".toList else "false".toList)]

def Authenticator.passwordDescription (username : Text) : Text :=
  describedPartly "PasswordAuthenticator".toList [("username", quoted username)]

def Credentials.description (credentials : Credentials) : Text :=
  describedFields "PasswordAuthRequest".toList [
    ("username", quoted (Utf8.decodeLossy credentials.username)),
    ("password", quoted "<hidden>".toList)]

end SocksProxy
