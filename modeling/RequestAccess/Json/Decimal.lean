import RequestAccess.Double
import RequestAccess.Json.Reader

/-!
# Numbers with a fraction

A number that is not whole, or does not fit in 64 bits, is read as a double. It is written with the
fewest digits that stand for it: with a point where it lies between `0.00001` and
`10000000000000000`, and with an exponent beyond.
-/

namespace RequestAccess.Json

/-! ## Reading -/

/-- Puts digits behind a number for as long as 64 bits hold it, and gives the digits left over. -/
def appendDigits (n : Nat) : List Char → Nat × List Char
  | [] => (n, [])
  | c :: rest =>
    let next := n * 10 + (c.toNat - '0'.toNat)
    if next < 0x10000000000000000 then appendDigits next rest else (n, c :: rest)

/-- The number behind the mark of an exponent. -/
def exponentOf : List Char → Int
  | _ :: '-' :: digits => -(digitsValue digits : Int)
  | _ :: '+' :: digits => digitsValue digits
  | _ :: digits => digitsValue digits
  | [] => 0

/-- The first digits, as many as 64 bits hold, times a power of ten. -/
def scaled? (whole fraction exponent : List Char) : Option Double :=
  let (n, dropped) := appendDigits 0 whole
  let (n, left) := appendDigits n fraction
  let power := exponentOf exponent + dropped.length - (fraction.length - left.length : Nat)
  let digits := Double.nearest n 1
  if power < 0 then some (digits.scaleDown (-power).toNat) else digits.scaleUp power.toNat

/-- The double that a number without a sign is read as, unless it is too large for one. -/
def double? (s : List Char) : Option Double :=
  match readWhole s with
  | none => none
  | some (whole, s) =>
    match readFraction s with
    | none => none
    | some (fraction, s) =>
      match readExponent s with
      | none => none
      | some (exponent, _) => scaled? whole (fraction.drop 1) exponent

/-! ## Writing -/

/-- Writes digits whose decimal point stands behind the first `point` of them. -/
def placePoint (digits : List Char) (point : Int) : List Char :=
  if 16 < point ∨ point ≤ -5 then
    let power := point - 1
    let exponent := 'e' :: (if power < 0 then [] else ['+']) ++ (toString power).toList
    match digits with
    | first :: second :: rest => first :: '.' :: second :: rest ++ exponent
    | digits => digits ++ exponent
  else if point ≤ 0 then '0' :: '.' :: List.replicate (-point).toNat '0' ++ digits
  else
    let whole := digits.take point.toNat
    let fraction := digits.drop point.toNat
    whole ++ List.replicate (point.toNat - whole.length) '0' ++
      '.' :: (if fraction = [] then ['0'] else fraction)

def writeDouble (d : Double) : List Char :=
  if d.isZero then ['0', '.', '0']
  else
    let (n, power) := d.shortest
    let written := Nat.toDigits 10 n
    placePoint (written.reverse.dropWhile (· == '0')).reverse (written.length + power)

/-- A literal as the double that it is read as. One too large for a double stays as it is. -/
def roundLiteral (literal : String) : String :=
  let write (sign s : List Char) := ((double? s).map fun d =>
    String.ofList (sign ++ writeDouble d)).getD literal
  match literal.toList with
  | '-' :: s => write ['-'] s
  | s => write [] s

example : ["1.50", "-0", "5e-7", "0.3e-4", "1E16", "1e15", "-12.3e29", "18446744073709551616"].map
    roundLiteral = ["1.5", "-0.0", "5e-7", "0.00003", "1e+16", "1000000000000000.0", "-1.23e+30",
      "1.8446744073709552e+19"] := by decide +kernel

end RequestAccess.Json
