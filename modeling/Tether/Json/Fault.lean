import Tether.Decimal.Layout
import Tether.Text.Quoted

/-!
# What can be wrong with a document

Readers work on the characters that remain to be read. A `Fault` says what was wrong and what
remained when it was found; together with the whole text that gives a line and a column, which is
what a `Failure` reports and `from_json_str` gives as its error.
-/

namespace Tether.Json

/-- What was found where something else was expected. -/
inductive Found where
  /-- The literal `null`. -/
  | null
  /-- A truth value. -/
  | boolean (value : Bool)
  /-- A whole number that fits into a machine word. -/
  | integer (value : Int)
  /-- Any other number. -/
  | floating (value : Binary64)
  /-- A string. -/
  | text (value : String)
  /-- A list. -/
  | sequence
  /-- An object. -/
  | map
  deriving DecidableEq, Repr

/-- The reason why a document cannot be read. -/
inductive Cause where
  /-- The text ends where a value is due. -/
  | endInValue
  /-- The text ends inside an object. -/
  | endInObject
  /-- The text ends inside a list. -/
  | endInList
  /-- The text ends inside a string. -/
  | endInString
  /-- No value starts with this character. -/
  | expectedValue
  /-- A literal is misspelt. -/
  | expectedIdent
  /-- A key is not followed by a colon. -/
  | expectedColon
  /-- A member is followed by neither a comma nor the end of the object. -/
  | expectedObjectEnd
  /-- An element is followed by neither a comma nor the end of the list. -/
  | expectedListEnd
  /-- A member does not start with a string. -/
  | keyNotString
  /-- A comma is followed by the end of the object or list. -/
  | trailingComma
  /-- Something follows where the value should have ended. -/
  | trailingCharacters
  /-- A number is misspelt. -/
  | invalidNumber
  /-- A number is too large to be represented. -/
  | numberOutOfRange
  /-- A backslash is followed by an unknown escape. -/
  | invalidEscape
  /-- The first half of a surrogate pair is not followed by an escape. -/
  | endOfHexEscape
  /-- Half of a surrogate pair stands alone. -/
  | loneSurrogate
  /-- A control character stands in a string. -/
  | controlCharacter
  /-- Lists and objects are nested too deeply. -/
  | tooDeep
  /-- A value has the wrong type. -/
  | wrongType (found : Found) (expected : String)
  /-- A value has the right type and lies outside its range. -/
  | wrongValue (found : Found) (expected : String)
  /-- A name is none of the two that are allowed. -/
  | unknownVariant (name : String) (first second : String)
  /-- A field is given twice. -/
  | duplicateField (name : String)
  deriving DecidableEq, Repr

/-- A cause, and what remained to be read when it was found. -/
structure Fault where
  /-- What was wrong. -/
  cause : Cause
  /-- The characters not yet read. -/
  rest : List Char
  /-- How many bytes of them nevertheless count as read. -/
  ahead : Nat := 0
  deriving DecidableEq, Repr

/-- A fault at the next character, which was looked at and so counts as read. -/
def Fault.peeked (cause : Cause) (rest : List Char) : Fault := ⟨cause, rest, 1⟩

/-- What comes of reading: a result or a fault. Readers give their value together with the
characters that remain. -/
abbrev Reading := Except Fault

/-- Why a document cannot be read, and where. -/
structure Failure where
  /-- What was wrong. -/
  cause : Cause
  /-- The line, counted from one. -/
  line : Nat
  /-- The number of bytes of that line that were read. -/
  column : Nat
  deriving DecidableEq, Repr

/-- How many bytes the characters take in UTF-8. -/
def byteSize (cs : List Char) : Nat := cs.foldl (fun n c => n + c.utf8Size) 0

/-- The line and column after the given bytes, starting from a line and column. -/
def advance (position : Nat × Nat) (bytes : List UInt8) : Nat × Nat :=
  bytes.foldl (fun (line, column) (b : UInt8) =>
    if b == 10 then (line + 1, 0) else (line, column + 1)) position

/-- The place of a fault in the text it was found in. -/
def Fault.locate (f : Fault) (text : List Char) : Failure :=
  let bytes := (String.ofList text).toUTF8.toList
  let offset := bytes.length - byteSize f.rest + f.ahead
  let (line, column) := advance (1, 0) (bytes.take offset)
  ⟨f.cause, line, column⟩

/-- The text of what was found. -/
def Found.message : Found → String
  | null => "null"
  | boolean b => "boolean `" ++ (if b then "true" else "false") ++ "`"
  | integer n => "integer `" ++ toString n ++ "`"
  | floating x => "floating point `" ++ Decimal.Layout.document.write x ++ "`"
  | text s => "string " ++ Text.quoted s
  | sequence => "sequence"
  | map => "map"

/-- The text of a cause. -/
def Cause.message : Cause → String
  | endInValue => "EOF while parsing a value"
  | endInObject => "EOF while parsing an object"
  | endInList => "EOF while parsing a list"
  | endInString => "EOF while parsing a string"
  | expectedValue => "expected value"
  | expectedIdent => "expected ident"
  | expectedColon => "expected `:`"
  | expectedObjectEnd => "expected `,` or `\x7d`"
  | expectedListEnd => "expected `,` or `]`"
  | keyNotString => "key must be a string"
  | trailingComma => "trailing comma"
  | trailingCharacters => "trailing characters"
  | invalidNumber => "invalid number"
  | numberOutOfRange => "number out of range"
  | invalidEscape => "invalid escape"
  | endOfHexEscape => "unexpected end of hex escape"
  | loneSurrogate => "lone leading surrogate in hex escape"
  | controlCharacter => "control character (\\u0000-\\u001F) found while parsing a string"
  | tooDeep => "recursion limit exceeded"
  | wrongType found expected => "invalid type: " ++ found.message ++ ", expected " ++ expected
  | wrongValue found expected => "invalid value: " ++ found.message ++ ", expected " ++ expected
  | unknownVariant name first second =>
    "unknown variant `" ++ name ++ "`, expected `" ++ first ++ "` or `" ++ second ++ "`"
  | duplicateField name => "duplicate field `" ++ name ++ "`"

/-- The text of a failure. -/
def Failure.message (f : Failure) : String :=
  f.cause.message ++ " at line " ++ toString f.line ++ " column " ++ toString f.column

end Tether.Json
