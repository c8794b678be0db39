import Tether.Text.Invisible

/-!
# Quoted texts

A text inside a description stands between quotation marks. Quotation marks and backslashes get a
backslash before them, the common controls have their short names, and what would be invisible is
written by its code point. Bytes have a quoted form of their own.
-/

namespace Tether.Text

/-- A number in hexadecimal, without leading zeros. -/
def hex (n : Nat) : String := String.ofList (Nat.toDigits 16 n)

/-- One character inside a quoted text. -/
def quoteChar (c : Char) : String :=
  match c with
  | '\x00' => "\\0"
  | '\t' => "\\t"
  | '\n' => "\\n"
  | '\r' => "\\r"
  | '"' => "\\\""
  | '\\' => "\\\\"
  | c => if isInvisible c then "\\u\x7b" ++ hex c.toNat ++ "\x7d" else String.singleton c

/-- A text between quotation marks. -/
def quoted (s : String) : String :=
  "\"" ++ String.join (s.toList.map quoteChar) ++ "\""

/-- Two hexadecimal digits. -/
def hexByte (b : UInt8) : String :=
  (if b.toNat < 16 then "0" else "") ++ hex b.toNat

/-- One byte inside a quoted byte sequence. -/
def quoteByte (b : UInt8) : String :=
  if b == 0 then "\\0"
  else if b == 9 then "\\t"
  else if b == 10 then "\\n"
  else if b == 13 then "\\r"
  else if b == 34 then "\\\""
  else if b == 92 then "\\\\"
  else if 32 ≤ b && b < 127 then String.singleton (Char.ofNat b.toNat)
  else "\\x" ++ hexByte b

/-- A byte sequence between quotation marks, marked with a `b`. -/
def quotedBytes (bytes : ByteArray) : String :=
  "b\"" ++ String.join (bytes.toList.map quoteByte) ++ "\""

/-- Bytes as pairs of hexadecimal digits. -/
def hexBytes (bytes : ByteArray) : String := String.join (bytes.toList.map hexByte)

end Tether.Text
