/-!
# Percent escapes

Characters that may not stand in a part of an endpoint are written as their bytes, each a percent
sign and two hexadecimal digits. Which characters these are depends on the part; beyond ASCII and
among the controls it is always all of them. A percent sign itself is never escaped.
-/

namespace Tether.Endpoint

/-- Controls and everything beyond ASCII. -/
def isControl (c : Char) : Bool := c.toNat < 0x20 || 0x7f ≤ c.toNat

/-- A set of characters to escape in addition to the controls. -/
structure EscapeSet where
  /-- The further characters. -/
  chars : List Char

namespace EscapeSet

/-- What is escaped in a fragment. -/
def fragment : EscapeSet := ⟨[' ', '"', '<', '>', '\x60']⟩

/-- What is escaped in a query. -/
def query : EscapeSet := ⟨[' ', '"', '#', '<', '>', '\'']⟩

/-- What is escaped in a path. -/
def path : EscapeSet := ⟨fragment.chars ++ ['#', '?', '\x7b', '\x7d']⟩

/-- What is escaped in a user name or a password. -/
def userinfo : EscapeSet := ⟨path.chars ++ ['/', ':', ';', '=', '@', '[', '\\', ']', '^', '|']⟩

/-- Whether a character is escaped. -/
def mem (s : EscapeSet) (c : Char) : Bool := isControl c || s.chars.contains c

end EscapeSet

/-- An upper-case hexadecimal digit. -/
def hexUpper (n : Nat) : Char := (Nat.digitChar n).toUpper

/-- One byte as an escape. -/
def escapeByte (b : UInt8) : List Char :=
  ['%', hexUpper (b.toNat / 16), hexUpper (b.toNat % 16)]

/-- One character, escaped if need be. -/
def escapeChar (s : EscapeSet) (c : Char) : List Char :=
  if s.mem c then (String.utf8EncodeChar c).flatMap escapeByte else [c]

/-- A text with its characters escaped where need be. -/
def escapeText (s : EscapeSet) (cs : List Char) : List Char := cs.flatMap (escapeChar s)

/-- The value of a hexadecimal digit. -/
def hexValue? (c : Char) : Option Nat :=
  if '0' ≤ c && c ≤ '9' then some (c.toNat - '0'.toNat)
  else if 'a' ≤ c && c ≤ 'f' then some (c.toNat - 'a'.toNat + 10)
  else if 'A' ≤ c && c ≤ 'F' then some (c.toNat - 'A'.toNat + 10)
  else none

/-- Resolves the escapes of a text, which gives the character of each byte; a percent sign that
starts no escape stands for itself. Characters beyond ASCII are kept as they are. -/
def unescape : List Char → List Char
  | '%' :: a :: b :: rest =>
    match hexValue? a, hexValue? b with
    | some x, some y => Char.ofNat (16 * x + y) :: unescape rest
    | _, _ => '%' :: unescape (a :: b :: rest)
  | c :: rest => c :: unescape rest
  | [] => []

end Tether.Endpoint
