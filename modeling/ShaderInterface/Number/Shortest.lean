import ShaderInterface.Number.Binary64

/-!
# Shortest decimals

The decimal with the fewest digits among those that round to a given binary64 magnitude, and the
nearest of these; of two equally near the greater. `Magnitude.readsBack` says which decimals round
to the magnitude, `shortest` selects among them: for each number of digits it tries the two
neighbours of the magnitude on the grid of decimals with that many digits.
-/

namespace ShaderInterface.Number

/-- The magnitude `mantissa * 2 ^ exponent` of a finite float that is not zero. -/
structure Magnitude where
  mantissa : Nat
  exponent : Int
  deriving DecidableEq, Repr

/-- The decimal `digits * 10 ^ exponent`. -/
structure Decimal where
  digits : Nat
  exponent : Int
  deriving DecidableEq, Repr

/-- How many decimal digits a natural number has; zero has one. -/
def digitCount (n : Nat) : Nat := (Nat.toDigits 10 n).length

/-- The order of `d * 10 ^ i` and `m * 2 ^ j`. -/
def compareScaled (d : Nat) (i : Int) (m : Nat) (j : Int) : Ordering :=
  compare (d * Nat.pow 10 i.toNat * Nat.pow 2 (-j).toNat)
    (m * Nat.pow 2 j.toNat * Nat.pow 10 (-i).toNat)

namespace Magnitude

/-- The lower end of the reals that round to the magnitude, in quarters of its last place. Below a
power of two the floats lie twice as close. -/
def lowerEnd (x : Magnitude) : Nat :=
  if x.mantissa = 2 ^ 52 ∧ -1074 < x.exponent then 4 * x.mantissa - 1 else 4 * x.mantissa - 2

/-- The upper end of the reals that round to the magnitude, in quarters of its last place. -/
def upperEnd (x : Magnitude) : Nat := 4 * x.mantissa + 2

/-- The decimal rounds to the magnitude. A real halfway between two floats goes to the one with
the even mantissa. -/
def readsBack (x : Magnitude) (d : Decimal) : Bool :=
  let low := compareScaled d.digits d.exponent x.lowerEnd (x.exponent - 2)
  let high := compareScaled d.digits d.exponent x.upperEnd (x.exponent - 2)
  let even := x.mantissa % 2 == 0
  (low == .gt || (even && low == .eq)) && (high == .lt || (even && high == .eq))

/-- The magnitude as a fraction. -/
def numerator (x : Magnitude) : Nat := x.mantissa * Nat.pow 2 x.exponent.toNat

@[inherit_doc numerator]
def denominator (x : Magnitude) : Nat := Nat.pow 2 (-x.exponent).toNat

/-- The `e` with `10 ^ e ≤ x < 10 ^ (e + 1)`. -/
def leadingExponent (x : Magnitude) : Int :=
  if x.denominator ≤ x.numerator then digitCount (x.numerator / x.denominator) - 1
  else -digitCount ((x.denominator - 1) / x.numerator)

/-- The greatest multiple of `10 ^ k` that is at most the magnitude, in units of `10 ^ k`. -/
def floorOn (x : Magnitude) (k : Int) : Nat :=
  x.numerator * Nat.pow 10 (-k).toNat / (x.denominator * Nat.pow 10 k.toNat)

/-- Twice the magnitude is less than `d * 10 ^ k`. -/
def doubleBelow (x : Magnitude) (d : Nat) (k : Int) : Bool :=
  compareScaled d k x.mantissa (x.exponent + 1) == .gt

/-- The decimal on the grid of `10 ^ k` that reads back and lies nearest, if one reads back. -/
def nearestOn (x : Magnitude) (k : Int) : Option Decimal :=
  let below : Decimal := ⟨x.floorOn k, k⟩
  let above : Decimal := ⟨x.floorOn k + 1, k⟩
  match x.readsBack below, x.readsBack above with
  | true, true => some (if x.doubleBelow (below.digits + above.digits) k then below else above)
  | true, false => some below
  | false, true => some above
  | false, false => none

end Magnitude

/-- The decimal without the zeros at its end: while the last digit is zero it is dropped, at most
as many times as `fuel` says. -/
def Decimal.dropZeros : Nat → Decimal → Decimal
  | 0, d => d
  | fuel + 1, d =>
    if d.digits ≠ 0 ∧ d.digits % 10 = 0 then dropZeros fuel ⟨d.digits / 10, d.exponent + 1⟩ else d

/-- The shortest decimal that rounds to the magnitude. Seventeen digits always suffice; the exact
value stands behind them only to make the function total. -/
def shortest (x : Magnitude) : Decimal :=
  let grids := (List.range 17).map fun (n : Nat) => x.leadingExponent - n
  let exact : Decimal :=
    if 0 ≤ x.exponent then ⟨x.numerator, 0⟩
    else ⟨x.mantissa * Nat.pow 5 (-x.exponent).toNat, x.exponent⟩
  let found := (grids.findSome? x.nearestOn).getD exact
  found.dropZeros (digitCount found.digits)

example : shortest ⟨1, -1074⟩ = ⟨5, -324⟩ := by decide +kernel
example : shortest ⟨2 ^ 52, -77⟩ = ⟨29802322387695313, -24⟩ := by decide +kernel
example : shortest ⟨2, -1074⟩ = ⟨1, -323⟩ := by decide +kernel

end ShaderInterface.Number
