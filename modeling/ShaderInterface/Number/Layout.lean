import ShaderInterface.Number.Binary64
import ShaderInterface.Number.Shortest

/-!
# The text of a float

The shortest decimal laid out by a `Layout`: positional while the exponent of the leading digit is
in a given range, with at least one digit on each side of the point, and with an exponent mark
outside of it.
-/

namespace ShaderInterface.Number

/-- The decisions of a float format. -/
structure Layout where
  /-- The least exponent of the leading digit that is written positionally. -/
  plainFrom : Int
  /-- The greatest exponent of the leading digit that is written positionally. -/
  plainTo : Int
  /-- The text of a value that is no number. -/
  nan : String
  /-- The text of positive infinity. -/
  infinity : String

namespace Layout

/-- Digits with the point after the one that has exponent zero. `e` is the exponent of the first
digit. -/
def plain (digits : List Char) (e : Int) : List Char :=
  if e < 0 then '0' :: '.' :: List.replicate (-e - 1).toNat '0' ++ digits
  else
    let whole := e.toNat + 1
    let fraction := digits.drop whole
    digits.take whole ++ List.replicate (whole - digits.length) '0' ++ '.' ::
      (if fraction.isEmpty then ['0'] else fraction)

/-- Digits with the point after the first, where more follow, and the exponent after a mark. -/
def scientific (digits : List Char) (e : Int) : List Char :=
  digits.take 1 ++ (if digits.length ≤ 1 then [] else '.' :: digits.drop 1) ++
    'e' :: (toString e).toList

/-- The text of a positive decimal. -/
def writeDecimal (layout : Layout) (d : Decimal) : List Char :=
  let digits := Nat.toDigits 10 d.digits
  let e := d.exponent + digits.length - 1
  if layout.plainFrom ≤ e ∧ e ≤ layout.plainTo then plain digits e else scientific digits e

/-- The text of a float. -/
def write (layout : Layout) (x : Float) : String :=
  match Binary64.ofFloat x with
  | .nan => layout.nan
  | .infinite negative => sign negative ++ layout.infinity
  | .zero negative => sign negative ++ "0.0"
  | .finite negative m e => sign negative ++ String.ofList (layout.writeDecimal (shortest ⟨m, e⟩))
where
  /-- A minus sign in front of what is negative. -/
  sign (negative : Bool) : String := if negative then "-" else ""

end Layout

end ShaderInterface.Number
