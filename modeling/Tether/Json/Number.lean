import Tether.Json.Scan
import Tether.Decimal.Reading

/-!
# Numbers in documents

A number without point and exponent that fits into a machine word is a whole number; every other
number is read as a binary number. The digits are gathered into a 64-bit significand as long as
they fit, the others only move the decimal point, and the significand is then multiplied or divided
by a power of ten. Each of these steps rounds, so a long number may miss the nearest binary number
by a few units; short ones, and all that this library writes for whole multipliers, do not. This
is how `from_json_str` reads a number.
-/

namespace Tether.Json

/-- A number of a document. -/
inductive Number where
  /-- A whole number that is not negative. -/
  | natural (value : Nat)
  /-- A negative whole number. -/
  | negative (value : Int)
  /-- Any other number. -/
  | floating (value : Binary64)
  deriving DecidableEq, Repr

/-- The number as what was found in place of something else. -/
def Number.found : Number → Found
  | natural n => .integer n
  | negative n => .integer n
  | floating x => .floating x

/-- The number as a binary number. -/
def Number.toBinary : Number → Binary64
  | natural n => Binary64.ofNat n
  | negative n => Binary64.nearest true n.natAbs 1 0
  | floating x => x

/-- The largest significand. -/
def wordMax : Nat := Nat.pow 2 64 - 1

/-- The largest decimal exponent that is read digit by digit. -/
def exponentMax : Nat := Nat.pow 2 31 - 1

/-- Gathers digits into a significand until the next one would not fit; gives the significand and
the digits that are left over. -/
def gather : Nat → List Char → Nat × List Char
  | significand, [] => (significand, [])
  | significand, c :: rest =>
    let next := significand * 10 + Decimal.digitValue c
    if wordMax < next then (significand, c :: rest) else gather next rest

/-- A power of ten as a binary number. -/
def powerOfTen (n : Nat) : Binary64 := Binary64.nearest false (Nat.pow 10 n) 1 0

/-- Moves the decimal point of `x` by `power` places, at most 308 at a time. The fuel bounds the
number of moves; after three of them nothing is left of any significand. -/
def shiftPoint : Nat → Binary64 → Int → Option Binary64
  | 0, x, _ => some x
  | fuel + 1, x, power =>
    if power.natAbs ≤ 308 then
      if 0 ≤ power then
        let y := x.mul (powerOfTen power.natAbs)
        if y.isFinite then some y else none
      else some (x.div (powerOfTen power.natAbs))
    else if x.same (Binary64.zero false) then some x
    else if 0 ≤ power then none
    else shiftPoint fuel (x.div (powerOfTen 308)) (power + 308)

/-- The binary number of a significand and a power of ten. -/
def assemble (positive : Bool) (significand : Nat) (power : Int) (rest : List Char) :
    Reading (Binary64 × List Char) :=
  match shiftPoint 5 (Binary64.ofNat significand) power with
  | some x => .ok (if positive then x else x.neg, rest)
  | none => .error ⟨.numberOutOfRange, rest, 0⟩

/-- Reads the digits of an exponent; `none` if they exceed every sensible exponent, with the text
after the digit that did so. -/
def exponentDigits : Nat → List Char → Option Nat × List Char
  | value, [] => (some value, [])
  | value, c :: rest =>
    if c.isDigit then
      let next := value * 10 + Decimal.digitValue c
      if exponentMax < next then (none, rest) else exponentDigits next rest
    else (some value, c :: rest)

/-- Reads an exponent after its mark and finishes the number. -/
def exponent (positive : Bool) (significand : Nat) (power : Int) (text : List Char) :
    Reading (Binary64 × List Char) :=
  let (negative, digits) := match text with
    | '+' :: rest => (false, rest)
    | '-' :: rest => (true, rest)
    | rest => (false, rest)
  match digits with
  | [] => .error ⟨.endInValue, [], 0⟩
  | c :: rest =>
    if !c.isDigit then .error ⟨.invalidNumber, digits, 1⟩
    else match exponentDigits (Decimal.digitValue c) rest with
      | (some value, after) =>
        assemble positive significand (if negative then power - value else power + value) after
      | (none, after) =>
        if significand != 0 && !negative then .error ⟨.numberOutOfRange, after, 0⟩
        else .ok (Binary64.zero (!positive), after.dropWhile Char.isDigit)

/-- Finishes a number after its digits: an exponent may follow. -/
def afterDigits (positive : Bool) (significand : Nat) (power : Int) (text : List Char) :
    Reading (Binary64 × List Char) :=
  match text with
  | 'e' :: rest | 'E' :: rest => exponent positive significand power rest
  | _ => assemble positive significand power text

/-- Reads the digits after a decimal point and finishes the number. -/
def fraction (positive : Bool) (significand : Nat) (power : Int) (text : List Char) :
    Reading (Binary64 × List Char) :=
  let digits := text.takeWhile Char.isDigit
  let rest := text.dropWhile Char.isDigit
  if digits.isEmpty then
    .error (.peeked (if rest.isEmpty then .endInValue else .invalidNumber) rest)
  else
    let (gathered, left) := gather significand digits
    afterDigits positive gathered (power - (digits.length - left.length : Nat)) rest

/-- A whole number after all its digits. -/
def whole (positive : Bool) (significand : Nat) : Number :=
  if positive then .natural significand
  else if significand = 0 ∨ Nat.pow 2 63 < significand then
    .floating (Binary64.nearest true significand 1 0)
  else .negative (-(significand : Int))

/-- Finishes a number after the digits before the point, of which `dropped` did not fit. -/
def afterWhole (positive : Bool) (significand dropped : Nat) (text : List Char) :
    Reading (Number × List Char) :=
  match text with
  | '.' :: rest => do
    let (x, after) ← fraction positive significand dropped rest
    return (.floating x, after)
  | _ =>
    if dropped = 0 && !(text.head? == some 'e' || text.head? == some 'E') then
      .ok (whole positive significand, text)
    else do
      let (x, after) ← afterDigits positive significand dropped text
      return (.floating x, after)

/-- Reads a number after its sign. -/
def number (positive : Bool) (text : List Char) : Reading (Number × List Char) :=
  match text with
  | [] => .error ⟨.endInValue, [], 0⟩
  | c :: rest =>
    if c = '0' then
      if rest.head?.any Char.isDigit then .error (.peeked .invalidNumber rest)
      else afterWhole positive 0 0 rest
    else if c.isDigit then
      let (significand, left) := gather 0 (text.takeWhile Char.isDigit)
      afterWhole positive significand left.length (text.dropWhile Char.isDigit)
    else .error ⟨.invalidNumber, text, 1⟩

/-! ## Passing over a number -/

/-- Passes over an exponent after its mark. -/
def skipExponent (text : List Char) : Except Fault (List Char) :=
  let digits := match text with
    | '+' :: rest => rest
    | '-' :: rest => rest
    | rest => rest
  match digits with
  | [] => .error ⟨.invalidNumber, [], 0⟩
  | c :: rest =>
    if c.isDigit then .ok (rest.dropWhile Char.isDigit) else .error ⟨.invalidNumber, digits, 1⟩

/-- Passes over what may follow the digits before the point. -/
def skipFraction (text : List Char) : Except Fault (List Char) :=
  match text with
  | '.' :: rest =>
    let after := rest.dropWhile Char.isDigit
    if (rest.takeWhile Char.isDigit).isEmpty then .error (.peeked .invalidNumber rest)
    else match after with
      | 'e' :: more | 'E' :: more => skipExponent more
      | _ => .ok after
  | 'e' :: rest | 'E' :: rest => skipExponent rest
  | _ => .ok text

/-- Passes over a number after its sign. -/
def skipNumber (text : List Char) : Except Fault (List Char) :=
  match text with
  | [] => .error ⟨.invalidNumber, [], 0⟩
  | c :: rest =>
    if c = '0' then
      if rest.head?.any Char.isDigit then .error (.peeked .invalidNumber rest)
      else skipFraction rest
    else if c.isDigit then skipFraction (rest.dropWhile Char.isDigit)
    else .error ⟨.invalidNumber, text, 1⟩

end Tether.Json
