import RequestAccess.Toml

/-!
# Numbers in TOML

Integers have 64 bits. Of a number with a fraction or an exponent only its kind is kept, but one
that is too great for a double is no number.
-/

namespace RequestAccess.Toml

def isDigit (c : Char) : Bool := '0' ≤ c && c ≤ '9'

/-- The digits at hand, each with at most one underscore before it. -/
def moreDigits (ok : Char → Bool) : List Char → List Char × List Char
  | [] => ([], [])
  | '_' :: c :: s =>
    if ok c then let p := moreDigits ok s; (c :: p.1, p.2) else ([], '_' :: c :: s)
  | c :: s => if ok c then let p := moreDigits ok s; (c :: p.1, p.2) else ([], c :: s)

/-- At least one digit. -/
def readDigits (ok : Char → Bool) : List Char → Option (List Char × List Char)
  | [] => none
  | c :: s => if ok c then let p := moreDigits ok s; some (c :: p.1, p.2) else none

def digitValue (c : Char) : Nat :=
  if isDigit c then c.toNat - '0'.toNat else (c.toLower.toNat - 'a'.toNat) + 10

/-- The number that digits write in a base. -/
def valueIn (base : Nat) (digits : List Char) : Nat :=
  digits.foldl (fun n c => n * base + digitValue c) 0

def inRange (n : Int) : Bool := -0x8000000000000000 ≤ n && n ≤ 0x7FFFFFFFFFFFFFFF

def intOf? (n : Int) : Option Toml := if inRange n then some (.int n) else none

/-! ## Whole numbers -/

def isHexDigit (c : Char) : Bool :=
  isDigit c || ('a' ≤ c && c ≤ 'f') || ('A' ≤ c && c ≤ 'F')

def readBased (base : Nat) (ok : Char → Bool) (s : List Char) : Option (Toml × List Char) :=
  match readDigits ok s with
  | some (digits, rest) => (intOf? (valueIn base digits)).map (·, rest)
  | none => none

def readSign : List Char → Bool × List Char
  | '+' :: s => (false, s)
  | '-' :: s => (true, s)
  | s => (false, s)

/-- One zero, or digits that do not begin with one. -/
def readWhole : List Char → Option (List Char × List Char)
  | '0' :: rest => some (['0'], rest)
  | s => readDigits isDigit s

/-! ## Fractions and exponents -/

def readFraction : List Char → Option (List Char × List Char)
  | '.' :: s => readDigits isDigit s
  | s => some ([], s)

def readExponent : List Char → Option (Option Int × List Char)
  | c :: s =>
    if c == 'e' || c == 'E' then
      let (negative, s) := readSign s
      match readDigits isDigit s with
      | some (digits, rest) =>
        some (some (if negative then -(valueIn 10 digits : Int) else valueIn 10 digits), rest)
      | none => none
    else some (none, c :: s)
  | [] => some (none, [])

/-- Whether `digits`, read as a whole number and scaled by a power of ten, is at least the number
half a step above the greatest double. -/
def isTooGreat (digits : List Char) (scale : Int) : Bool :=
  let digits := digits.dropWhile (· == '0')
  let length := (digits.length : Int) + scale
  if digits = [] ∨ length < 300 then false
  else if 320 < length then true
  else
    let n := valueIn 10 digits
    let bound := Nat.pow 2 1024 - Nat.pow 2 970
    match scale with
    | .ofNat k => bound ≤ n * Nat.pow 10 k
    | .negSucc k => bound * Nat.pow 10 (k + 1) ≤ n

def floatOf? (negative : Bool) (whole fraction : List Char) (exponent : Int) : Option Toml :=
  if !negative && isTooGreat (whole ++ fraction) (exponent - fraction.length) then none
  else some .float

/-- A whole number, or one with a fraction or an exponent. -/
def readDecimal (negative : Bool) (s : List Char) : Option (Toml × List Char) :=
  match readWhole s with
  | none => none
  | some (whole, s) =>
    match readFraction s with
    | none => none
    | some (fraction, s) =>
      match readExponent s with
      | none => none
      | some (none, s) =>
        if fraction = [] then
          let n : Int := valueIn 10 whole
          (intOf? (if negative then -n else n)).map (·, s)
        else (floatOf? negative whole fraction 0).map (·, s)
      | some (some exponent, s) => (floatOf? negative whole fraction exponent).map (·, s)

def readUnsigned (negative : Bool) : List Char → Option (Toml × List Char)
  | 'i' :: 'n' :: 'f' :: rest => some (.float, rest)
  | 'n' :: 'a' :: 'n' :: rest => some (.float, rest)
  | s => readDecimal negative s

def readNumber : List Char → Option (Toml × List Char)
  | '0' :: 'x' :: s => readBased 16 isHexDigit s
  | '0' :: 'o' :: s => readBased 8 (fun c => '0' ≤ c && c ≤ '7') s
  | '0' :: 'b' :: s => readBased 2 (fun c => c == '0' || c == '1') s
  | '+' :: s => readUnsigned false s
  | '-' :: s => readUnsigned true s
  | s => readUnsigned false s

end RequestAccess.Toml
