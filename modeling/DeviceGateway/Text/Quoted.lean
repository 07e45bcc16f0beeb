import DeviceGateway.Text.Printable

/-!
# Quoted text

Messages show a text between double quotes so that its ends and its hidden characters can be
seen. Quotes and backslashes are escaped, the common controls have short escapes, and every other
hidden character is written by its code point in hexadecimal.
-/

namespace DeviceGateway.Text

/-- Lower-case hexadecimal digits, none in front that is zero. -/
def hex (n : Nat) : String := String.ofList (Nat.toDigits 16 n)

def quoteChar (c : Char) : String :=
  match c with
  | '"' => "\\\""
  | '\\' => "\\\\"
  | '\n' => "\\n"
  | '\r' => "\\r"
  | '\t' => "\\t"
  | '\x00' => "\\0"
  | c => if isPrintable c then c.toString else "\\u\x7b" ++ hex c.toNat ++ "\x7d"

/-- **A text as messages show it**, between double quotes. -/
def quote (s : String) : String :=
  "\"" ++ String.join (s.toList.map quoteChar) ++ "\""

end DeviceGateway.Text
