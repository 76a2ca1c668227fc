import RecordSynthesis.Text.Escaped

/-!
# Quoted text

A string as it is written between double quotes: the usual short escapes, and `\u{…}` with the code point in hexadecimal
for every character that has no shape of its own.
-/

namespace RecordSynthesis.Text

set_option autoImplicit false

def hexDigits (n : Nat) : List Char := Nat.toDigits 16 n

/-- One character as it stands inside double quotes. -/
def quotedChar (c : Char) : List Char :=
  if c = '"' then ['\\', '"']
  else if c = '\\' then ['\\', '\\']
  else if c = '\n' then ['\\', 'n']
  else if c = '\r' then ['\\', 'r']
  else if c = '\t' then ['\\', 't']
  else if c.toNat = 0 then ['\\', '0']
  else if isEscaped c then ['\\', 'u', '{'] ++ hexDigits c.toNat ++ ['}']
  else [c]

def quoted (s : String) : String :=
  String.ofList (['"'] ++ s.toList.flatMap quotedChar ++ ['"'])

end RecordSynthesis.Text
