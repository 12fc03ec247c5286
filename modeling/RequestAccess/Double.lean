/-!
# Doubles

Numbers of 53 binary digits, in exact arithmetic. A number is rounded to the nearest of them, and
is written with the fewest decimal digits that round back to it.
-/

namespace RequestAccess

/-- The number `mantissa * 2 ^ exponent`, counted in the smallest step, which is `2 ^ -1074`. The
mantissa is below `2 ^ 53`, and from `2 ^ 52` on unless the exponent is zero. -/
structure Double where
  mantissa : Nat
  exponent : Nat
deriving DecidableEq

namespace Double

/-- How many of the smallest step make one. -/
def stepsOfOne : Nat := 1 <<< 1074

/-- How many of the smallest step a number is. -/
def steps (d : Double) : Nat := d.mantissa <<< d.exponent

def isZero (d : Double) : Bool := d.mantissa == 0

/-- Whether a number is not beyond the largest double. -/
def isFinite (d : Double) : Bool := d.exponent ≤ 2045

/-! ## Rounding -/

/-- The nearest whole number to `n / d`. A half goes to the even neighbour. -/
def nearestWhole (n d : Nat) : Nat :=
  let low := n / d
  let rest := 2 * (n % d)
  if d < rest ∨ (rest = d ∧ low % 2 = 1) then low + 1 else low

/-- The nearest double to `n / d`. A half goes to the even mantissa. -/
def nearest (n d : Nat) : Double :=
  let n := n * stepsOfOne
  let exponent := (n / d).log2 - 52
  let mantissa := nearestWhole n (d <<< exponent)
  if mantissa = 1 <<< 53 then ⟨1 <<< 52, exponent + 1⟩ else ⟨mantissa, exponent⟩

/-- The product of two doubles, rounded. -/
def mul (a b : Double) : Double := nearest (a.steps * b.steps) (stepsOfOne * stepsOfOne)

/-- The quotient of two doubles, rounded. -/
def div (a b : Double) : Double := nearest a.steps b.steps

def powerOfTen (n : Nat) : Double := nearest (Nat.pow 10 n) 1

/-- The largest power of ten that is finite. -/
def largestPower : Nat := 308

/-- A double times a power of ten, rounded once. What is too large for a power of ten is too large
for a double. -/
def scaleUp (d : Double) (n : Nat) : Option Double :=
  if d.isZero then some d
  else if largestPower < n then none
  else
    let scaled := d.mul (powerOfTen n)
    if scaled.isFinite then some scaled else none

/-- A double below `2 ^ 65` over a power of ten. Beyond the largest power it is divided twice, and
nothing is left of it where that is not enough. -/
def scaleDown (d : Double) (n : Nat) : Double :=
  if n ≤ largestPower then d.div (powerOfTen n)
  else (d.div (powerOfTen largestPower)).div (powerOfTen (min (n - largestPower) largestPower))

/-! ## Fewest digits -/

/-- The multiple of `10 ^ k` that is nearest to a double among those that round to it. The numbers
that round to a double reach half a step to either side, but only a quarter below a power of two;
they include both ends if the mantissa is even. -/
def multiple? (d : Double) (k : Int) : Option Nat :=
  let scale (n : Nat) := (n <<< d.exponent) * Nat.pow 10 (-k).toNat
  let one := 4 * stepsOfOne * Nat.pow 10 k.toNat
  let value := scale (4 * d.mantissa)
  let low := value - scale (if d.mantissa = 1 <<< 52 ∧ d.exponent ≠ 0 then 1 else 2)
  let high := value + scale 2
  let roundsBack (c : Nat) : Bool :=
    if d.mantissa % 2 = 0 then low ≤ c * one && c * one ≤ high
    else low < c * one && c * one < high
  let near := nearestWhole value one
  [near, value / one, value / one + 1].find? roundsBack

/-- The number `c * 10 ^ k` of fewest digits that rounds to a double other than zero, as `c` and
`k`: the grid of powers of ten is made finer until one of its points does. -/
def shortest (d : Double) : Nat × Int :=
  ((List.range 634).findSome? fun (i : Nat) =>
    let k : Int := 309 - i
    (d.multiple? k).map (·, k)).getD (0, 0)

example : (nearest 1 10).shortest = (1, -1) := by decide +kernel
example : (nearest 9007199254740993 1).steps / stepsOfOne = 9007199254740992 := by decide +kernel
example : (Double.mk 1 0).shortest = (5, -324) := by decide +kernel
example : (powerOfTen 23).shortest = (1, 23) := by decide +kernel
example : (nearest 9007199254740991 8).shortest = (11258999068426239, -1) := by decide +kernel

end Double

end RequestAccess
