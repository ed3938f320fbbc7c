import SocksProxy.Invisible

/-!
# Quoted text

The form in which a text stands inside a description: between double quotes,
with escapes for quotes, backslashes, line ends, tabs, the null character and
every character without a visible form.
-/

namespace SocksProxy

def quotedChar (c : Char) : Text :=
  match c with
  | '"' => ['\\', '"']
  | '\\' => ['\\', '\\']
  | '\n' => ['\\', 'n']
  | '\r' => ['\\', 'r']
  | '\t' => ['\\', 't']
  | '\x00' => ['\\', '0']
  | c => if isInvisible c then "\\u\x7b".toList ++ Hex.text c.toNat ++ ['}'] else [c]

def quoted (t : Text) : Text := '"' :: t.flatMap quotedChar ++ ['"']

end SocksProxy
