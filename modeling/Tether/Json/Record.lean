import Tether.Json.Value

/-!
# Records

A record is given as an object whose members are its fields in any order, or as a list of the
fields in their fixed order. Fields that are missing keep their value, members that are no field
are passed over, and a field may be given only once. `from_json_str` reads a configuration and the
curve in it as such records.
-/

namespace Tether.Json

/-- A value that is not of the expected type. It is read as far as its own type needs, and
reported behind that; a list or an object is reported before its bracket. -/
def unexpected {α : Type} (expected : String) (text : List Char) : Reading (α × List Char) :=
  match text with
  | [] => .error (.peeked .expectedValue [])
  | c :: rest =>
    match Lead.of? c with
    | none => .error (.peeked .expectedValue text)
    | some (.literal spelling meaning) => do
      throw ⟨.wrongType meaning expected, ← literal spelling rest, 0⟩
    | some .minus => do
      let (n, after) ← number false rest
      throw ⟨.wrongType n.found expected, after, 0⟩
    | some .digit => do
      let (n, after) ← number true text
      throw ⟨.wrongType n.found expected, after, 0⟩
    | some .quote => do
      let (s, after) ← string rest
      throw ⟨.wrongType (.text s) expected, after, 0⟩
    | some (.bracket .list) => .error ⟨.wrongType .sequence expected, text, 0⟩
    | some (.bracket .object) => .error ⟨.wrongType .map expected, text, 0⟩

/-- Reads a string. -/
def readString (expected : String) (text : List Char) : Reading (String × List Char) :=
  match skipBlanks text with
  | [] => .error (.peeked .endInValue [])
  | '"' :: rest => string rest
  | rest => unexpected expected rest

/-- Reads a number of any kind. -/
def readNumber (expected : String) (text : List Char) : Reading (Number × List Char) :=
  match skipBlanks text with
  | [] => .error (.peeked .endInValue [])
  | c :: rest =>
    if c = '-' then number false rest
    else if c.isDigit then number true (c :: rest)
    else unexpected expected (c :: rest)

/-- Reads a whole number that fits into a machine word. -/
def readWord (expected : String) (text : List Char) : Reading (Nat × List Char) := do
  match ← readNumber expected text with
  | (.natural n, rest) => return (n, rest)
  | (.negative n, rest) => throw ⟨.wrongValue (.integer n) expected, rest, 0⟩
  | (.floating x, rest) => throw ⟨.wrongType (.floating x) expected, rest, 0⟩

/-- Reads a number as a binary number. -/
def readBinary (text : List Char) : Reading (Binary64 × List Char) := do
  let (n, rest) ← readNumber "f64" text
  return (n.toBinary, rest)

/-- Reads `null`. -/
def readNull (text : List Char) : Reading (Unit × List Char) :=
  match skipBlanks text with
  | [] => .error (.peeked .endInValue [])
  | 'n' :: rest => (literal ['u', 'l', 'l'] rest).map (((), ·))
  | rest => unexpected "unit" rest

/-- A choice between two names. -/
structure Choice (α : Type) where
  /-- The first name and its meaning. -/
  first : String × α
  /-- The second name and its meaning. -/
  second : String × α

/-- Reads one of the two names. -/
def Choice.name {α : Type} (c : Choice α) (text : List Char) : Reading (α × List Char) := do
  let (s, rest) ← readString "variant identifier" text
  if s = c.first.1 then return (c.first.2, rest)
  else if s = c.second.1 then return (c.second.2, rest)
  else throw ⟨.unknownVariant s c.first.1 c.second.1, rest, 0⟩

/-- Goes to the only key of an object, behind its opening bracket. -/
def soleKey (text : List Char) : Except Fault (List Char) :=
  match skipBlanks text with
  | [] => .error (.peeked .endInObject [])
  | '"' :: rest => .ok ('"' :: rest)
  | '\x7d' :: rest => .error (.peeked .expectedValue ('\x7d' :: rest))
  | rest => .error (.peeked .keyNotString rest)

/-- Reads a choice: one of the names, or an object with one of them as its only key and `null` as
its value. -/
def Choice.read {α : Type} (c : Choice α) (text : List Char) : Reading (α × List Char) :=
  match skipBlanks text with
  | [] => .error (.peeked .endInValue [])
  | '"' :: rest => c.name ('"' :: rest)
  | '\x7b' :: rest => do
    let (a, after) ← c.name (← soleKey rest)
    let ((), after) ← readNull (← colon after)
    match skipBlanks after with
    | [] => throw ⟨.endInObject, [], 0⟩
    | '\x7d' :: more => return (a, more)
    | more => throw ⟨.expectedValue, more, 0⟩
  | rest => .error (.peeked .expectedValue rest)

/-- A field of a record: its name, and how its value changes the record. -/
structure Field (σ : Type) where
  /-- The name of the field. -/
  name : String
  /-- Reads the value and puts it into the record. -/
  read : σ → List Char → Reading (σ × List Char)

/-- A field whose value is read on its own and then put into the record. -/
def Field.of {σ α : Type} (name : String) (reader : List Char → Reading (α × List Char))
    (put : σ → α → σ) : Field σ :=
  ⟨name, fun record text => (reader text).map fun (a, rest) => (put record a, rest)⟩

/-- What remains after the end of an object was looked for, whether it was found or not. -/
def afterObjectEnd (text : List Char) : List Char :=
  match skipBlanks text with
  | '\x7d' :: rest => rest
  | rest => rest

/-- Reads the members of an object into a record, at most as many as the first list is long; `seen`
holds the fields given so far. -/
def readMembers {σ : Type} (fields : List (Field σ)) :
    List Char → List String → σ → Bool → List Char → Reading (σ × List Char)
  | [], _, _, _, text => .error (.peeked .endInObject text)
  | _ :: bound, seen, record, first, text => do
    match ← nextKey first text with
    | none => return (record, (skipBlanks text).drop 1)
    | some rest => do
      let (key, after) ← string rest
      match fields.find? (·.name == key) with
      | none => readMembers fields bound seen record false (← skipValue (← colon after))
      | some field =>
        if seen.contains key then throw ⟨.duplicateField key, afterObjectEnd after, 0⟩
        else do
          let (record, after) ← field.read record (← colon after)
          readMembers fields bound (key :: seen) record false after

/-- Reads the end of a list of which all fields were read. -/
def endOfList (text : List Char) : Except Fault (List Char) :=
  match skipBlanks text with
  | [] => .error (.peeked .endInList [])
  | ']' :: rest => .ok rest
  | ',' :: rest =>
    match skipBlanks rest with
    | ']' :: after => .error (.peeked .trailingComma (']' :: after))
    | after => .error (.peeked .trailingCharacters after)
  | rest => .error (.peeked .trailingCharacters rest)

/-- Reads the elements of a list into the fields of a record, in their order. -/
def readElements {σ : Type} : List (Field σ) → σ → Bool → List Char → Reading (σ × List Char)
  | [], record, _, text => (endOfList text).map ((record, ·))
  | field :: fields, record, first, text => do
    match ← nextElement first text with
    | none => return (record, ← endOfList text)
    | some rest =>
      let (record, after) ← field.read record rest
      readElements fields record false after

/-- Reads a record, starting from its default. -/
def readRecord {σ : Type} (expected : String) (fields : List (Field σ)) (default : σ)
    (text : List Char) : Reading (σ × List Char) :=
  match skipBlanks text with
  | [] => .error (.peeked .endInValue [])
  | '[' :: rest => readElements fields default true rest
  | '\x7b' :: rest => readMembers fields rest [] default true rest
  | rest => unexpected expected rest

end Tether.Json
