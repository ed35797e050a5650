import ServiceGovernance.Text.Printable

/-!
Text between double quotes, as messages show the text they speak of. Quote, backslash, newline,
carriage return, tab and the null character have short escapes, every other character that does not
stand for itself is `\u{…}` with its code point in hexadecimal.
-/

namespace ServiceGovernance.Text

def hexText (n : Nat) : List Char := Nat.toDigits 16 n

def quotedChar (c : Char) : List Char :=
  if c = '"' then ['\\', '"']
  else if c = '\\' then ['\\', '\\']
  else if c = '\n' then ['\\', 'n']
  else if c = '\r' then ['\\', 'r']
  else if c = '\t' then ['\\', 't']
  else if c.toNat = 0 then ['\\', '0']
  else if isPrintable c then [c]
  else ['\\', 'u', '\x7b'] ++ hexText c.toNat ++ ['\x7d']

def quoted (text : String) : String :=
  String.ofList ('"' :: text.toList.flatMap quotedChar ++ ['"'])

end ServiceGovernance.Text
