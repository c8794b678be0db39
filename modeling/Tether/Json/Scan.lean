import Tether.Json.Fault

/-!
# Blanks, literals and strings

The smallest parts of a document. A string is read into the characters it denotes, with its
escapes resolved; a string that is only passed over keeps its escapes unresolved, so that halves of
surrogate pairs are allowed there.
-/

namespace Tether.Json

/-- The four characters that may stand between the parts of a document. -/
def isBlank (c : Char) : Bool := c == ' ' || c == '\n' || c == '\t' || c == '\r'

/-- Passes over blanks. -/
def skipBlanks (text : List Char) : List Char := text.dropWhile isBlank

/-- Reads the rest of a literal whose first character was seen. -/
def literal : List Char → List Char → Except Fault (List Char)
  | [], text => .ok text
  | _ :: _, [] => .error ⟨.endInValue, [], 0⟩
  | c :: cs, d :: text =>
    if c = d then literal cs text else .error ⟨.expectedIdent, d :: text, 1⟩

/-- The value of a hexadecimal digit. -/
def hexDigit? (c : Char) : Option Nat :=
  if '0' ≤ c && c ≤ '9' then some (c.toNat - '0'.toNat)
  else if 'a' ≤ c && c ≤ 'f' then some (c.toNat - 'a'.toNat + 10)
  else if 'A' ≤ c && c ≤ 'F' then some (c.toNat - 'A'.toNat + 10)
  else none

/-- The number that four hexadecimal digits denote. -/
def hexValue? (a b c d : Char) : Option Nat := do
  let a ← hexDigit? a
  let b ← hexDigit? b
  let c ← hexDigit? c
  let d ← hexDigit? d
  return ((a * 16 + b) * 16 + c) * 16 + d

/-- Four bytes that are no hexadecimal digits, or the end of the text before four bytes. -/
def badHex (text : List Char) : Fault :=
  if byteSize text < 4 then ⟨.endInString, [], 0⟩ else ⟨.invalidEscape, text, 4⟩

/-- Reads the four digits of an escape. -/
def hexEscape (text : List Char) : Reading (Nat × List Char) :=
  match text with
  | a :: b :: c :: d :: rest =>
    match hexValue? a b c d with
    | some n => .ok (n, rest)
    | none => .error (badHex text)
  | _ => .error (badHex text)

/-- First halves of surrogate pairs. -/
def isLeading (n : Nat) : Bool := 0xD800 ≤ n && n ≤ 0xDBFF

/-- Second halves of surrogate pairs. -/
def isTrailing (n : Nat) : Bool := 0xDC00 ≤ n && n ≤ 0xDFFF

/-- The character that a surrogate pair denotes. -/
def joinSurrogates (first second : Nat) : Char :=
  Char.ofNat (0x10000 + (first - 0xD800) * 0x400 + (second - 0xDC00))

/-- Reads the second half of a surrogate pair. -/
def secondSurrogate (first : Nat) (text : List Char) : Reading (Char × List Char) :=
  match text with
  | [] => .error ⟨.endInString, [], 0⟩
  | '\\' :: rest =>
    match rest with
    | [] => .error ⟨.endInString, [], 0⟩
    | 'u' :: digits => do
      let (second, after) ← hexEscape digits
      if isTrailing second then return (joinSurrogates first second, after)
      else throw ⟨.loneSurrogate, after, 0⟩
    | _ => .error ⟨.endOfHexEscape, rest, 1⟩
  | _ => .error ⟨.endOfHexEscape, text, 1⟩

/-- Reads a character given by its code. -/
def unicodeEscape (text : List Char) : Reading (Char × List Char) := do
  let (n, rest) ← hexEscape text
  if isTrailing n then throw ⟨.loneSurrogate, rest, 0⟩
  else if isLeading n then secondSurrogate n rest
  else return (Char.ofNat n, rest)

/-- The character of a short escape. -/
def shortEscape? : Char → Option Char
  | '"' => some '"'
  | '\\' => some '\\'
  | '/' => some '/'
  | 'b' => some '\x08'
  | 'f' => some '\x0c'
  | 'n' => some '\n'
  | 'r' => some '\r'
  | 't' => some '\t'
  | _ => none

/-- Reads an escape after its backslash. -/
def escape (text : List Char) : Reading (Char × List Char) :=
  match text with
  | [] => .error ⟨.endInString, [], 0⟩
  | 'u' :: rest => unicodeEscape rest
  | c :: rest =>
    match shortEscape? c with
    | some d => .ok (d, rest)
    | none => .error ⟨.invalidEscape, text, 1⟩

/-- Reads the characters of a string up to its closing quotation mark. Every round reads at least
one character, so a list as long as the text bounds the rounds. -/
def stringLoop : List Char → List Char → List Char → Reading (String × List Char)
  | [], _, text => .error ⟨.endInString, text, 0⟩
  | _ :: bound, done, text =>
    match text with
    | [] => .error ⟨.endInString, [], 0⟩
    | '"' :: rest => .ok (String.ofList done.reverse, rest)
    | '\\' :: rest => do
      let (c, after) ← escape rest
      stringLoop bound (c :: done) after
    | c :: rest =>
      if c.toNat < 0x20 then .error ⟨.controlCharacter, text, 1⟩
      else stringLoop bound (c :: done) rest

/-- Reads a string after its opening quotation mark. -/
def string (text : List Char) : Reading (String × List Char) :=
  stringLoop text [] text

/-- Passes over an escape after its backslash. -/
def skipEscape (text : List Char) : Except Fault (List Char) :=
  match text with
  | [] => .error ⟨.endInString, [], 0⟩
  | 'u' :: rest => (hexEscape rest).map (·.2)
  | c :: rest =>
    match shortEscape? c with
    | some _ => .ok rest
    | none => .error ⟨.invalidEscape, text, 1⟩

/-- Passes over the characters of a string up to its closing quotation mark, in at most as many
rounds as the first list is long. -/
def skipStringLoop : List Char → List Char → Except Fault (List Char)
  | [], text => .error ⟨.endInString, text, 0⟩
  | _ :: bound, text =>
    match text with
    | [] => .error ⟨.endInString, [], 0⟩
    | '"' :: rest => .ok rest
    | '\\' :: rest => do skipStringLoop bound (← skipEscape rest)
    | c :: rest =>
      if c.toNat < 0x20 then .error ⟨.controlCharacter, text, 0⟩
      else skipStringLoop bound rest

/-- Passes over a string after its opening quotation mark. -/
def skipString (text : List Char) : Except Fault (List Char) :=
  skipStringLoop text text

end Tether.Json
