import Tether.Binary64

/-!
# Reading a decimal

A decimal text is an optional sign, digits with an optional point, and an optional exponent. It
names the binary number nearest to it. The names `NaN`, `inf` and `-inf` stand for themselves.
-/

namespace Tether.Decimal

/-- The value of one decimal digit. -/
def digitValue (c : Char) : Nat := c.toNat - '0'.toNat

/-- The whole number that a run of digits denotes. -/
def ofDigits (digits : List Char) : Nat := digits.foldl (fun n c => 10 * n + digitValue c) 0

/-- The exponent at the end of a decimal text: nothing, or a mark, an optional sign and digits. -/
def readExponent : List Char → Option Int
  | [] => some 0
  | mark :: rest =>
    if mark != 'e' && mark != 'E' then none
    else
      let (negative, digits) := match rest with
        | '-' :: ds => (true, ds)
        | '+' :: ds => (false, ds)
        | ds => (false, ds)
      if digits.isEmpty || !digits.all Char.isDigit then none
      else some (if negative then -(ofDigits digits : Int) else ofDigits digits)

/-- An unsigned decimal. -/
def readMagnitude (negative : Bool) (text : List Char) : Option Binary64 :=
  let whole := text.takeWhile Char.isDigit
  let rest := text.dropWhile Char.isDigit
  let (fraction, rest) := match rest with
    | '.' :: r => (r.takeWhile Char.isDigit, r.dropWhile Char.isDigit)
    | r => ([], r)
  if whole.isEmpty && fraction.isEmpty then none
  else (readExponent rest).map fun power =>
    Binary64.ofScientific negative (ofDigits (whole ++ fraction)) (power - fraction.length)

/-- The number that a decimal text names. -/
def read? (text : String) : Option Binary64 :=
  match text with
  | "NaN" => some .nan
  | "inf" => some (.infinite false)
  | "-inf" => some (.infinite true)
  | _ => match text.toList with
    | '-' :: rest => readMagnitude true rest
    | '+' :: rest => readMagnitude false rest
    | rest => readMagnitude false rest

end Tether.Decimal
