import Tether.Endpoint.Basic

/-!
# Reading endpoints

A text is cleaned of surrounding blanks and of tabs and line breaks, and then taken apart from left
to right: scheme, user name and password, host, port, path, query, fragment. A backslash counts as
a slash. Dot segments are resolved, escapes are added where a part needs them, and the usual port
is left out. Texts of other schemes are checked as far as their host and port go before the scheme
is refused, because a fault there is reported first. `parse` is what `parse_endpoint` reads with,
and so `start` and `validate`.
-/

namespace Tether.Endpoint

/-- Controls and spaces, which do not count at either end of a text. -/
def isPadding (c : Char) : Bool := c.toNat ≤ 0x20

/-- Tabs and line breaks, which do not count anywhere. -/
def isIgnored (c : Char) : Bool := c == '\t' || c == '\n' || c == '\r'

/-- The characters of a text that count. -/
def clean (text : String) : List Char :=
  (((text.toList.dropWhile isPadding).reverse.dropWhile isPadding).reverse).filter (!isIgnored ·)

/-- Characters of a scheme. -/
def isSchemeChar (c : Char) : Bool := c.isAlphanum || c == '+' || c == '-' || c == '.'

/-- The scheme in lower case, and what follows its colon. -/
def splitScheme (cs : List Char) : Option (String × List Char) :=
  if cs.head?.any Char.isAlpha then
    match cs.dropWhile isSchemeChar with
    | ':' :: rest => some (String.ofList ((cs.takeWhile isSchemeChar).map Char.toLower), rest)
    | _ => none
  else none

/-- A slash of either direction. -/
def isSlash (c : Char) : Bool := c == '/' || c == '\\'

/-- Where the part with user name, host and port ends. In schemes with rules of their own
(`special`) a backslash counts as a slash. -/
def endsAuthority (special : Bool) (c : Char) : Bool :=
  c == '/' || c == '?' || c == '#' || (special && c == '\\')

/-- What stands before the last at sign of the authority, if it has one, and what follows. -/
def splitUserinfo (special : Bool) (cs : List Char) : Option (List Char) × List Char :=
  let authority := cs.takeWhile (!endsAuthority special ·)
  let hostSide := (authority.reverse.takeWhile (· != '@')).length
  if hostSide = authority.length then (none, cs)
  else
    let size := authority.length - hostSide - 1
    (some (cs.take size), cs.drop (size + 1))

/-- User name and password, escaped; an empty password is none. -/
def credentials (cs : List Char) : String × Option String :=
  let name := cs.takeWhile (· != ':')
  let password := (cs.dropWhile (· != ':')).drop 1
  let escaped (part : List Char) : String := String.ofList (escapeText .userinfo part)
  (escaped name, if password.isEmpty then none else some (escaped password))

/-- How many characters belong to the host; a colon between brackets does not end it. -/
def hostLength (special : Bool) : Bool → List Char → Nat
  | _, [] => 0
  | inside, c :: rest =>
    if (c == ':' && !inside) || endsAuthority special c then 0
    else hostLength special (if c == '[' then true else if c == ']' then false else inside) rest + 1

/-- Reads a port after its colon. -/
def readPort (usual : Option Nat) (cs : List Char) : Except Fault (Option Nat × List Char) :=
  let digits := cs.takeWhile Char.isDigit
  let rest := cs.dropWhile Char.isDigit
  let number := digits.foldl (fun n c => 10 * n + (c.toNat - '0'.toNat)) 0
  if 65535 < number then .error .port
  else if rest.head?.any (fun c => !(isSlash c || c == '?' || c == '#')) then .error .port
  else .ok (if digits.isEmpty || usual == some number then none else some number, rest)

/-- What an authority holds. -/
structure Authority where
  /-- User name and password. -/
  credentials : String × Option String
  /-- The host, unless the scheme has no rules for it. -/
  host : Option Host
  /-- The port, if it is not the usual one. -/
  port : Option Nat

/-- Reads the authority of a scheme. -/
def readAuthority (special : Bool) (usual : Option Nat) (cs : List Char) :
    Except Fault (Authority × List Char) := do
  let (user, rest) := splitUserinfo special cs
  if user == some [] && rest.head?.any (endsAuthority special) then throw .emptyHost
  let size := hostLength special false rest
  let hostText := rest.take size
  let rest := rest.drop size
  let host ←
    if special then
      if hostText.isEmpty then throw .emptyHost else some <$> Host.parse hostText
    else do
      Host.checkOther hostText
      pure none
  if hostText.isEmpty && rest.head? == some ':' then throw .emptyHost
  let (port, rest) ← match rest with
    | ':' :: digits => readPort usual digits
    | _ => pure (none, rest)
  let login := (user.map Endpoint.credentials).getD ("", none)
  if !special && hostText.isEmpty && (login.1 != "" || login.2.isSome) then throw .emptyHost
  return (⟨login, host, port⟩, rest)

/-! ## Paths -/

/-- Segments that stand for the place where they are. -/
def isDot (segment : List Char) : Bool :=
  let s := segment.map Char.toLower
  s == ['.'] || s == ['%', '2', 'e']

/-- Segments that stand for the place above. -/
def isDoubleDot (segment : List Char) : Bool :=
  let s := segment.map Char.toLower
  s == ['.', '.'] || s == ['%', '2', 'e', '.'] || s == ['.', '%', '2', 'e'] ||
    s == ['%', '2', 'e', '%', '2', 'e']

/-- A letter and a colon or bar: segments of this form are never left upwards. -/
def isDrive : List Char → Bool
  | [letter, mark] => letter.isAlpha && (mark == ':' || mark == '|')
  | _ => false

/-- Goes up one segment; `done` holds the segments so far, last first. -/
def parent (done : List (List Char)) : List (List Char) :=
  match done with
  | [] => []
  | last :: rest => if isDrive last then last :: rest else rest

/-- Resolves dot segments. `done` holds the segments so far, last first; a dot segment at the end
leaves an empty segment behind. -/
def resolve : List (List Char) → List (List Char) → List (List Char)
  | done, [] => done.reverse
  | done, [last] =>
    if isDoubleDot last then ([] :: parent done).reverse
    else if isDot last then ([] :: done).reverse
    else (last :: done).reverse
  | done, segment :: rest =>
    if isDoubleDot segment then resolve (parent done) rest
    else if isDot segment then resolve done rest
    else resolve (segment :: done) rest

/-- The segments of a path that ends before a query or fragment. -/
def readPath (cs : List Char) : List String :=
  let cs := match cs with
    | c :: rest => if isSlash c then rest else c :: rest
    | [] => []
  let slashed := cs.map fun c => if c == '\\' then '/' else c
  (resolve [] ((cut '/' slashed).map (escapeText .path))).map String.ofList

/-- Reads an endpoint after its scheme. -/
def readLink (secure : Bool) (cs : List Char) : Except Fault Endpoint := do
  let (authority, rest) ←
    readAuthority true (some (usualPort secure)) (cs.dropWhile isSlash)
  match authority.host with
  | none => throw .emptyHost
  | some host =>
    let path := rest.takeWhile fun c => c != '?' && c != '#'
    let rest := rest.dropWhile fun c => c != '?' && c != '#'
    let (query, rest) := match rest with
      | '?' :: more => (some (more.takeWhile (· != '#')), more.dropWhile (· != '#'))
      | _ => (none, rest)
    let fragment := match rest with
      | '#' :: more => some more
      | _ => none
    return {
      secure
      username := authority.credentials.1
      password := authority.credentials.2
      host
      port := authority.port
      segments := readPath path
      query := query.map fun q => String.ofList (escapeText .query q)
      fragment := fragment.map fun f => String.ofList (escapeText .fragment f) }

/-! ## Other schemes -/

/-- The usual port of the other schemes with rules of their own. -/
def otherPort : String → Option Nat
  | "http" => some 80
  | "https" => some 443
  | "ftp" => some 21
  | _ => none

/-- Checks the host of a local file. -/
def checkFile (cs : List Char) : Except Fault Unit :=
  match cs with
  | a :: b :: rest =>
    if isSlash a && isSlash b then
      let host := rest.takeWhile (!endsAuthority true ·)
      if host.isEmpty || isDrive host then .ok () else (Host.parse host).map fun _ => ()
    else .ok ()
  | _ => .ok ()

/-- Checks a text of another scheme as far as its host and port go. -/
def checkOther (scheme : String) (cs : List Char) : Except Fault Unit :=
  if scheme == "file" then checkFile cs
  else if (otherPort scheme).isSome then
    (readAuthority true (otherPort scheme) (cs.dropWhile isSlash)).map fun _ => ()
  else match cs with
    | '/' :: '/' :: rest => (readAuthority false none rest).map fun _ => ()
    | _ => .ok ()

/-- Reads an endpoint. -/
def parse (text : String) : Except Fault Endpoint :=
  match splitScheme (clean text) with
  | none => .error .relative
  | some (scheme, rest) =>
    if scheme == "ws" then readLink false rest
    else if scheme == "wss" then readLink true rest
    else do
      checkOther scheme rest
      throw (.scheme scheme)

end Tether.Endpoint
