import Tether.Decimal.Layout

/-!
# Writing documents

Records are written as objects, one member a line, indented by two spaces for each level. In a
string only quotation marks, backslashes and control characters are escaped. This is how
`to_json_string` writes a configuration.
-/

namespace Tether.Json

/-- A lower-case hexadecimal digit. -/
def hexDigitOf (n : Nat) : Char := (Nat.toDigits 16 (n % 16)).headD '0'

/-- One character inside a string. -/
def writeChar (c : Char) : List Char :=
  match c with
  | '"' => ['\\', '"']
  | '\\' => ['\\', '\\']
  | '\x08' => ['\\', 'b']
  | '\x0c' => ['\\', 'f']
  | '\n' => ['\\', 'n']
  | '\r' => ['\\', 'r']
  | '\t' => ['\\', 't']
  | c =>
    if c.toNat < 0x20 then
      ['\\', 'u', '0', '0', hexDigitOf (c.toNat / 16), hexDigitOf c.toNat]
    else [c]

/-- A string. -/
def writeString (s : String) : List Char :=
  '"' :: (s.toList.flatMap writeChar ++ ['"'])

/-- A whole number. -/
def writeNat (n : Nat) : List Char := Nat.toDigits 10 n

/-- A binary number; what is no finite number has no spelling of its own. -/
def writeBinary (x : Binary64) : List Char :=
  if x.isFinite then (Decimal.Layout.document.write x).toList else ['n', 'u', 'l', 'l']

/-- A line break and the indentation of a level. -/
def newline (level : Nat) : List Char := '\n' :: List.replicate (2 * level) ' '

/-- The members of an object inside a level. -/
def writeMembers (level : Nat) : List (String × List Char) → List Char
  | [] => []
  | [(name, text)] => newline level ++ writeString name ++ [':', ' '] ++ text
  | (name, text) :: rest =>
    newline level ++ writeString name ++ [':', ' '] ++ text ++ ',' :: writeMembers level rest

/-- An object whose members stand inside the given level. -/
def writeObject (level : Nat) (members : List (String × List Char)) : List Char :=
  '\x7b' :: (writeMembers level members ++ newline (level - 1) ++ ['\x7d'])

end Tether.Json
