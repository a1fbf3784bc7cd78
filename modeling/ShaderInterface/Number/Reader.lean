import ShaderInterface.Number.Binary64

/-!
# Numbers from digits

The value of a run of digits, and the float nearest to a decimal. A decimal far outside the range
of floats is decided by the place of its leading digit alone, so that its power of ten is never
computed.
-/

namespace ShaderInterface.Number

/-- The value of a hexadecimal digit. -/
def hexValue? (c : Char) : Option Nat :=
  if c.isDigit then some (c.toNat - 0x30)
  else if 'a' ≤ c ∧ c ≤ 'f' then some (c.toNat - 0x57)
  else if 'A' ≤ c ∧ c ≤ 'F' then some (c.toNat - 0x37)
  else none

/-- A hexadecimal digit. -/
def isHexDigit (c : Char) : Bool := (hexValue? c).isSome

/-- The value of a run of digits in the given base, the most significant first. -/
def ofDigits (base : Nat) (digits : List Char) : Nat :=
  digits.foldl (fun n c => n * base + (hexValue? c).getD 0) 0

/-- The integers that 64 bits hold with a sign. -/
def inInt64 (n : Int) : Bool := -2 ^ 63 ≤ n && n < 2 ^ 63

/-- The float nearest to `n * 10 ^ e`, the one with the even mantissa when two are equally near,
and infinity when the decimal is too large. `places` is the number of digits of `n`. -/
def nearestFloat (n places : Nat) (e : Int) : Float :=
  if n = 0 ∨ places + e < -400 then 0.0
  else if 400 < e then Float.ofBits 0x7FF0000000000000
  else Float.ofScientific n (e < 0) e.natAbs

/-- A decimal as it is read: digits before the point, digits after it, and an exponent. -/
structure Numeral where
  whole : List Char
  fraction : List Char
  exponent : Int
  deriving DecidableEq, Repr

/-- The float nearest to the decimal. -/
def Numeral.toFloat (x : Numeral) : Float :=
  let digits := x.whole ++ x.fraction
  nearestFloat (ofDigits 10 digits) digits.length (x.exponent - x.fraction.length)

example : ofDigits 16 ['1', 'f', 'A'] = 0x1FA := by decide
example : (Numeral.toFloat ⟨['1'], ['5'], -3⟩) = 0.0015 := by decide +kernel

end ShaderInterface.Number
