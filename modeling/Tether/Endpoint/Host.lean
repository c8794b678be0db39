import Tether.Endpoint.Escape
import Tether.Text.Quoted

/-!
# Hosts

A host is a name, an address of four bytes, or an address of eight groups of sixteen bits. Names
are in lower case. A name whose last label is a number is an address of four bytes or nothing; the
parts of such an address may be decimal, octal or hexadecimal, and the last part fills the bytes
that are left. Of an address of groups the longest run of zero groups is left out when written.
This is how `parse_endpoint` reads a host.

International names are outside this module. To read them takes the tables by which characters
beyond ASCII are mapped, and by which a label that starts with `xn--` is decoded and checked. Here a
name with a character beyond ASCII is refused, as a character that no name may hold, and a label
that starts with `xn--` is a label like any other. So nothing that is shown about endpoints is about
names that the tables would change, accept or refuse.
-/

namespace Tether.Endpoint

/-- Why a text names no endpoint. -/
inductive Fault where
  /-- There is no scheme. -/
  | relative
  /-- There is no host. -/
  | emptyHost
  /-- The port is no number of sixteen bits. -/
  | port
  /-- The host looks like an address of four bytes and is none. -/
  | ipv4
  /-- The host stands in brackets and is no address of groups. -/
  | ipv6
  /-- The host holds a character that no name may hold. -/
  | name
  /-- The host of a scheme without rules for names holds a reserved character. -/
  | nameCharacter
  /-- The scheme is not one of the two for this kind of connection. -/
  | scheme (given : String)
  /-- A reason given in words. -/
  | other (message : String)
  deriving DecidableEq, Repr

/-- The text of the reason. -/
def Fault.message : Fault → String
  | relative => "relative URL without a base"
  | emptyHost => "empty host"
  | port => "invalid port number"
  | ipv4 => "invalid IPv4 address"
  | ipv6 => "invalid IPv6 address"
  | name => "invalid international domain name"
  | nameCharacter => "invalid domain character"
  | scheme given => "unsupported scheme '" ++ given ++ "', expected ws or wss"
  | other message => message

/-- The host of an endpoint. -/
inductive Host where
  /-- A name, in lower case. -/
  | name (text : String)
  /-- An address of four bytes, as one number of 32 bits. -/
  | ipv4 (address : Nat)
  /-- An address of eight groups of sixteen bits. -/
  | ipv6 (groups : List Nat)
  deriving DecidableEq, Repr

/-- Cuts a text at every occurrence of a character. -/
def cut (mark : Char) : List Char → List (List Char)
  | [] => [[]]
  | c :: rest =>
    if c = mark then [] :: cut mark rest
    else match cut mark rest with
      | [] => [[c]]
      | first :: more => (c :: first) :: more

/-! ## Addresses of four bytes -/

/-- The value of a digit in some base up to sixteen. -/
def digitIn? (base : Nat) (c : Char) : Option Nat :=
  (hexValue? c).filter (· < base)

/-- A number in some base. -/
def numberIn? (base : Nat) (digits : List Char) : Option Nat :=
  digits.foldlM (fun n c => (digitIn? base c).map (base * n + ·)) 0

/-- One part of an address: hexadecimal after `0x`, octal after a leading zero, else decimal. -/
def part? : List Char → Option Nat
  | [] => none
  | '0' :: 'x' :: digits => numberIn? 16 digits
  | '0' :: d :: digits => numberIn? 8 (d :: digits)
  | digits => numberIn? 10 digits

/-- The parts of a name, without an empty one at the end. -/
def labels (name : List Char) : List (List Char) :=
  let parts := cut '.' name
  if parts.getLast? == some [] then parts.dropLast else parts

/-- Whether the last label of a name is a number, so that the name has to be an address. -/
def endsInNumber (name : List Char) : Bool :=
  match (labels name).getLast? with
  | none => false
  | some last => (!last.isEmpty && last.all Char.isDigit) || (part? last).isSome

/-- The address that the numbers of its parts denote: all parts but the last are bytes, and the
last one fills what is left of 32 bits. -/
def joinParts? (parts : List Nat) : Option Nat :=
  match parts.getLast? with
  | none => none
  | some last =>
    let bytes := parts.dropLast
    if 3 < bytes.length || bytes.any (255 < ·) || Nat.pow 256 (4 - bytes.length) ≤ last then none
    else some (bytes.zipIdx.foldl (fun n (b, i) => n + b * Nat.pow 256 (3 - i)) last)

/-- An address of four bytes. -/
def ipv4? (name : List Char) : Option Nat := do
  let parts ← (labels name).mapM part?
  joinParts? parts

/-- The four bytes of an address, first byte first. -/
def bytesOf (address : Nat) : List Nat :=
  [address / Nat.pow 256 3 % 256, address / Nat.pow 256 2 % 256, address / 256 % 256, address % 256]

/-- Four bytes, divided by points. -/
def ipv4Text (address : Nat) : String :=
  String.intercalate "." ((bytesOf address).map toString)

/-! ## Addresses of groups -/

/-- Cuts a text at its first double colon, if it has one. -/
def cutPair (cs : List Char) : List Char × Option (List Char) :=
  match cs with
  | ':' :: ':' :: rest => ([], some rest)
  | c :: rest => let (before, after) := cutPair rest; (c :: before, after)
  | [] => ([], none)

/-- One group: one to four hexadecimal digits. -/
def group? (digits : List Char) : Option Nat :=
  if digits.isEmpty || 4 < digits.length then none else numberIn? 16 digits

/-- One byte in decimal, without leading zeros. -/
def byte? (digits : List Char) : Option Nat :=
  match digits with
  | [] => none
  | ['0'] => some 0
  | '0' :: _ => none
  | _ => if 3 < digits.length then none else (numberIn? 10 digits).filter (· ≤ 255)

/-- Two groups written as four bytes. -/
def dotted? (cs : List Char) : Option (List Nat) := do
  match ← (cut '.' cs).mapM byte? with
  | [a, b, c, d] => return [256 * a + b, 256 * c + d]
  | _ => none

/-- The groups of a part of an address; the last one may be four bytes if `dotted` allows it. -/
def groups? (dotted : Bool) (cs : List Char) : Option (List Nat) :=
  if cs.isEmpty then some []
  else
    let texts := cut ':' cs
    match texts.getLast? with
    | none => some []
    | some last => do
      let front ← texts.dropLast.mapM group?
      if last.contains '.' then
        if dotted then return front ++ (← dotted? last) else none
      else return front ++ [← group? last]

/-- An address of eight groups; a double colon stands for at least one group of zeros. -/
def ipv6? (cs : List Char) : Option (List Nat) :=
  match cutPair cs with
  | (all, none) => (groups? true all).filter (·.length == 8)
  | (left, some right) => do
    let front ← groups? false left
    let back ← groups? true right
    let given := front.length + back.length
    if 7 < given then none else return front ++ List.replicate (8 - given) 0 ++ back

/-- The first longest run of zeros, from index `i` on: its start and its length. -/
def longestZeros (groups : List Nat) (i : Nat) : Nat × Nat :=
  match groups with
  | [] => (i, 0)
  | g :: rest =>
    let here := ((g :: rest).takeWhile (· == 0)).length
    let (start, length) := longestZeros rest (i + 1)
    if length ≤ here then (i, here) else (start, length)

/-- Groups in hexadecimal, divided by colons. -/
def groupsText (groups : List Nat) : String :=
  String.intercalate ":" (groups.map Text.hex)

/-- The groups with the first longest run of at least two zeros left out. -/
def ipv6Text (groups : List Nat) : String :=
  let (start, length) := longestZeros groups 0
  if length < 2 then groupsText groups
  else groupsText (groups.take start) ++ "::" ++ groupsText (groups.drop (start + length))

/-- The form of an address of groups in descriptions: one that holds an address of four bytes
shows its bytes. -/
def ipv6Description (groups : List Nat) : String :=
  match groups with
  | [0, 0, 0, 0, 0, 0xffff, a, b] => "::ffff:" ++ ipv4Text (65536 * a + b)
  | _ => ipv6Text groups

/-! ## Hosts -/

namespace Host

/-- The host as it stands in an endpoint. -/
def text : Host → String
  | name s => s
  | ipv4 address => ipv4Text address
  | ipv6 groups => "[" ++ ipv6Text groups ++ "]"

/-- The host as it stands in a description. -/
def description : Host → String
  | name s => "Domain(" ++ Text.quoted s ++ ")"
  | ipv4 address => "Ipv4(" ++ ipv4Text address ++ ")"
  | ipv6 groups => "Ipv6(" ++ ipv6Description groups ++ ")"

/-- Characters that no name may hold. -/
def isForbidden (c : Char) : Bool :=
  isControl c || [' ', '%', '#', '/', ':', '<', '>', '?', '@', '[', '\\', ']', '^', '|'].contains c

/-- A host between brackets, without them. -/
def bracketed (cs : List Char) : Except Fault Host :=
  if cs.getLast? == some ']' then
    match ipv6? cs.dropLast with
    | some groups => .ok (ipv6 groups)
    | none => .error .ipv6
  else .error .ipv6

/-- The host of a scheme with rules for names. International names are not mapped: characters beyond
ASCII count as forbidden, and labels that start with `xn--` are taken as they are. -/
def parse (cs : List Char) : Except Fault Host :=
  match cs with
  | '[' :: rest => bracketed rest
  | _ =>
    let text := (unescape cs).map Char.toLower
    if text.any isForbidden then .error .name
    else if text.isEmpty then .error .emptyHost
    else if endsInNumber text then
      match ipv4? text with
      | some address => .ok (ipv4 address)
      | none => .error .ipv4
    else .ok (name (String.ofList text))

/-- Characters that the host of any other scheme may not hold. -/
def isReserved (c : Char) : Bool :=
  ['\x00', '\t', '\n', '\r', ' ', '#', '/', ':', '<', '>', '?', '@', '[', '\\', ']', '^',
    '|'].contains c

/-- Whether a text can be the host of a scheme without rules for names. -/
def checkOther (cs : List Char) : Except Fault Unit :=
  match cs with
  | '[' :: rest => (bracketed rest).map fun _ => ()
  | _ => if cs.any isReserved then .error .nameCharacter else .ok ()

end Host

end Tether.Endpoint
