import Cuckoo.Text.Unprintable

/-!
# Quoted text

A text between double quotes, written so that it can be read back from one line: quotes and
backslashes get a backslash, the common controls their letter, and what has no shape of its own its
code point.
-/

set_option autoImplicit false

namespace Cuckoo.Text

/-- A code point in lower-case hexadecimal, without leading zeros. -/
def hexadecimal (n : Nat) : String := String.ofList (Nat.toDigits 16 n)

/-- How a character stands inside quotes. -/
def escape (c : Char) : String :=
  match c with
  | '\x00' => "\\0"
  | '\t' => "\\t"
  | '\n' => "\\n"
  | '\r' => "\\r"
  | '"' => "\\\""
  | '\\' => "\\\\"
  | c => if unprintable c then "\\u\x7b" ++ hexadecimal c.toNat ++ "\x7d" else c.toString

def quote (text : String) : String := "\"" ++ String.join (text.toList.map escape) ++ "\""

end Cuckoo.Text
