import Tether.Json.Number

/-!
# Whole values

Two ways to go over a value. `skipValue` passes over a member nobody asked for: it keeps the open
brackets on a stack, so it nests without limit, and does not look at the size of numbers. `value`
reads a value of any type in full, and gives up where brackets nest too deeply. `from_json_str`
passes over what it does not know.
-/

namespace Tether.Json

/-- The two kinds of bracket. -/
inductive Bracket where
  /-- Around the elements of a list. -/
  | list
  /-- Around the members of an object. -/
  | object
  deriving DecidableEq, Repr

namespace Bracket

/-- The closing bracket. -/
def close : Bracket → Char
  | list => ']'
  | object => '\x7d'

/-- The text ends inside these brackets. -/
def endCause : Bracket → Cause
  | list => .endInList
  | object => .endInObject

/-- Neither a comma nor the closing bracket follows. -/
def separatorCause : Bracket → Cause
  | list => .expectedListEnd
  | object => .expectedObjectEnd

end Bracket

/-- What a value starts with. -/
inductive Lead where
  /-- A literal, with the characters after the first and what it stands for. -/
  | literal (spelling : List Char) (meaning : Found)
  /-- A negative number. -/
  | minus
  /-- A number that is not negative. -/
  | digit
  /-- A string. -/
  | quote
  /-- A list or an object. -/
  | bracket (kind : Bracket)
  deriving Repr

/-- Recognises the start of a value by its first character. -/
def Lead.of? (c : Char) : Option Lead :=
  match c with
  | 'n' => some (.literal ['u', 'l', 'l'] .null)
  | 't' => some (.literal ['r', 'u', 'e'] (.boolean true))
  | 'f' => some (.literal ['a', 'l', 's', 'e'] (.boolean false))
  | '-' => some .minus
  | '"' => some .quote
  | '[' => some (.bracket .list)
  | '\x7b' => some (.bracket .object)
  | c => if c.isDigit then some .digit else none

/-- Passes over the key of a member and its colon. -/
def skipKey (text : List Char) : Except Fault (List Char) :=
  match skipBlanks text with
  | [] => .error (.peeked .endInObject [])
  | '"' :: rest => do
    match skipBlanks (← skipString rest) with
    | [] => throw (.peeked .endInObject [])
    | ':' :: after => return after
    | after => throw (.peeked .expectedColon after)
  | rest => .error (.peeked .keyNotString rest)

/-- Goes on behind a value inside `kind`, or behind the opening bracket, when no comma may follow
yet: to the next value of these brackets or to their end. The result says whether the brackets were
closed. -/
def skipSeparator (kind : Bracket) (comma : Bool) (text : List Char) :
    Except Fault (Bool × List Char) :=
  let enter (rest : List Char) : Except Fault (Bool × List Char) :=
    match kind with
    | .list => .ok (false, rest)
    | .object => (skipKey rest).map ((false, ·))
  match skipBlanks text with
  | [] => .error (.peeked kind.endCause [])
  | c :: rest =>
    if c = ',' && comma then enter rest
    else if c = kind.close then .ok (true, rest)
    else if comma then .error (.peeked kind.separatorCause (c :: rest))
    else enter (c :: rest)

/-- Passes over a value without brackets, or over an opening bracket. Gives the bracket. -/
def skipLead (text : List Char) : Except Fault (Option Bracket × List Char) :=
  match skipBlanks text with
  | [] => .error (.peeked .endInValue [])
  | c :: rest =>
    match Lead.of? c with
    | none => .error (.peeked .expectedValue (c :: rest))
    | some (.literal spelling _) => (literal spelling rest).map ((none, ·))
    | some .minus => (skipNumber rest).map ((none, ·))
    | some .digit => (skipNumber (c :: rest)).map ((none, ·))
    | some .quote => (skipString rest).map ((none, ·))
    | some (.bracket kind) => .ok (some kind, rest)

/-- Closes brackets, the innermost first, up to the next value. Gives those that are still open;
if there are none, nothing more is due. -/
def skipClosing : List Bracket → Bool → List Char → Except Fault (List Bracket × List Char)
  | [], _, text => .ok ([], text)
  | kind :: outer, comma, text => do
    match ← skipSeparator kind comma text with
    | (true, rest) => skipClosing outer true rest
    | (false, rest) => return (kind :: outer, rest)

/-- Passes over what is left of a value inside the brackets that are open around it. Every round
reads at least one character, so a list as long as the text bounds the rounds. -/
def skipLoop : List Char → List Bracket → List Char → Except Fault (List Char)
  | [], _, text => .error (.peeked .endInValue text)
  | _ :: bound, outer, text => do
    let (bracket, rest) ← skipLead text
    match ← skipClosing (bracket.toList ++ outer) bracket.isNone rest with
    | ([], after) => return after
    | (inner, after) => skipLoop bound inner after

/-- Passes over a value. -/
def skipValue (text : List Char) : Except Fault (List Char) := skipLoop text [] text

/-- Goes to the next element of a list; `none` at its end, which is not read. -/
def nextElement (first : Bool) (text : List Char) : Except Fault (Option (List Char)) :=
  match skipBlanks text with
  | [] => .error (.peeked .endInList [])
  | c :: rest =>
    if c = ']' then .ok none
    else if c = ',' && !first then
      match skipBlanks rest with
      | [] => .error (.peeked .endInValue [])
      | ']' :: after => .error (.peeked .trailingComma (']' :: after))
      | after => .ok (some after)
    else if first then .ok (some (c :: rest))
    else .error (.peeked .expectedListEnd (c :: rest))

/-- Goes to the key of the next member of an object, behind its quotation mark; `none` at the end
of the object, which is not read. -/
def nextKey (first : Bool) (text : List Char) : Except Fault (Option (List Char)) :=
  match skipBlanks text with
  | [] => .error (.peeked .endInObject [])
  | c :: rest =>
    if c = '\x7d' then .ok none
    else if c = ',' && !first then
      match skipBlanks rest with
      | [] => .error (.peeked .endInValue [])
      | '"' :: after => .ok (some after)
      | d :: after =>
        .error (.peeked (if d = '\x7d' then .trailingComma else .keyNotString) (d :: after))
    else if first then
      if c = '"' then .ok (some rest) else .error (.peeked .keyNotString (c :: rest))
    else .error (.peeked .expectedObjectEnd (c :: rest))

/-- Reads the colon after a key. -/
def colon (text : List Char) : Except Fault (List Char) :=
  match skipBlanks text with
  | [] => .error (.peeked .endInObject [])
  | ':' :: rest => .ok rest
  | rest => .error (.peeked .expectedColon rest)

/-- Reads the elements of a list with a reader for one of them, and the closing bracket; at most as
many elements as the first list is long. -/
def elements (item : List Char → Except Fault (List Char)) :
    List Char → Bool → List Char → Except Fault (List Char)
  | [], _, text => .error (.peeked .endInList text)
  | _ :: bound, first, text => do
    match ← nextElement first text with
    | none => return (skipBlanks text).drop 1
    | some rest => elements item bound false (← item rest)

/-- Reads the members of an object with a reader for one value, and the closing bracket; at most as
many members as the first list is long. -/
def members (item : List Char → Except Fault (List Char)) :
    List Char → Bool → List Char → Except Fault (List Char)
  | [], _, text => .error (.peeked .endInObject text)
  | _ :: bound, first, text => do
    match ← nextKey first text with
    | none => return (skipBlanks text).drop 1
    | some rest => do
      let (_, after) ← string rest
      members item bound false (← item (← colon after))

/-- Reads a value of any type, with brackets nested less than `depth` deep. -/
def value : Nat → List Char → Except Fault (List Char)
  | depth, text =>
    match skipBlanks text with
    | [] => .error (.peeked .endInValue [])
    | c :: rest =>
      match Lead.of? c with
      | none => .error (.peeked .expectedValue (c :: rest))
      | some (.literal spelling _) => literal spelling rest
      | some .minus => (number false rest).map (·.2)
      | some .digit => (number true (c :: rest)).map (·.2)
      | some .quote => (string rest).map (·.2)
      | some (.bracket kind) =>
        match depth, kind with
        | 0, _ => .error (.peeked .tooDeep (c :: rest))
        | depth + 1, .list => elements (value depth) rest true rest
        | depth + 1, .object => members (value depth) rest true rest

/-- Brackets nest at most this deep in a value that is read in full. -/
def depthLimit : Nat := 127

/-- Nothing but blanks may follow a document. -/
def finish (text : List Char) : Except Fault Unit :=
  match skipBlanks text with
  | [] => .ok ()
  | rest => .error (.peeked .trailingCharacters rest)

/-- Reads a whole text with a reader of values. -/
def document {α : Type} (reader : List Char → Reading (α × List Char)) (text : String) :
    Except Failure α :=
  match (do let (a, rest) ← reader text.toList; finish rest; return a : Except Fault α) with
  | .ok a => .ok a
  | .error f => .error (f.locate text.toList)

/-- Why a text is no value of any type, if it is none. -/
def failure? (text : String) : Option Failure :=
  match document (fun t => (value depthLimit t).map (((), ·))) text with
  | .ok () => none
  | .error f => some f

end Tether.Json
