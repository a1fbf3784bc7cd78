/-!
# The values of a binary64 float

A float taken apart into sign, mantissa and exponent of two, and put together again. The
remainder of a division, which core does not offer, is computed here on mantissas: it is exact, so
nothing has to be rounded.
-/

namespace ShaderInterface.Number

-- Powers are those of core, also where an import brings in others.
attribute [default_instance 20000] instPowNat

/-- What a binary64 float stands for. `finite negative m e` is `m * 2 ^ e` with that sign. -/
inductive Binary64 where
  | nan
  | infinite (negative : Bool)
  | zero (negative : Bool)
  | finite (negative : Bool) (mantissa : Nat) (exponent : Int)
  deriving DecidableEq, Repr

namespace Binary64

/-- The value with the given bits. -/
def ofBits (bits : Nat) : Binary64 :=
  let negative : Bool := 2 ^ 63 ≤ bits
  let biased : Nat := bits / 2 ^ 52 % 2 ^ 11
  let fraction : Nat := bits % 2 ^ 52
  if biased = 2047 then if fraction = 0 then .infinite negative else .nan
  else if biased = 0 then
    if fraction = 0 then .zero negative else .finite negative fraction (-1074)
  else .finite negative (fraction + 2 ^ 52) ((biased : Int) - 1075)

/-- The value of a float. -/
def ofFloat (x : Float) : Binary64 := ofBits x.toBits.toNat

/-- The bits of `m * 2 ^ e`, for `0 < m < 2 ^ 53` and `-1074 ≤ e` with the product in range:
the mantissa is moved up as far as the exponent allows. -/
def finiteBits (m : Nat) (e : Int) : Nat :=
  let shift := min (52 - m.log2) (e + 1074).toNat
  let m := m * Nat.pow 2 shift
  let e := e - shift
  if m < 2 ^ 52 then m else (e + 1075).toNat * 2 ^ 52 + (m - 2 ^ 52)

/-- The bits of a value; a mantissa and exponent must be those of a float. -/
def bits : Binary64 → Nat
  | nan => 0x7FF8000000000000
  | infinite negative => sign negative + 0x7FF0000000000000
  | zero negative => sign negative
  | finite negative m e => sign negative + finiteBits m e
where
  /-- The sign bit. -/
  sign (negative : Bool) : Nat := if negative then 2 ^ 63 else 0

/-- The float of a value. -/
def toFloat (x : Binary64) : Float := Float.ofBits (UInt64.ofNat x.bits)

/-- The remainder of a division that rounds toward zero. It has the sign of the dividend; it is no
number when the dividend is infinite or the divisor zero, and a finite dividend is its own
remainder by an infinite divisor. -/
def rem : Binary64 → Binary64 → Binary64
  | nan, _ | _, nan | infinite _, _ | _, zero _ => nan
  | zero negative, _ => zero negative
  | x, infinite _ => x
  | finite negative m e, finite _ n f =>
    let least := min e f
    let r := m * Nat.pow 2 (e - least).toNat % (n * Nat.pow 2 (f - least).toNat)
    if r = 0 then zero negative else finite negative r least

example : (rem (ofFloat 5.5) (ofFloat (-2.0))).toFloat = 1.5 := by decide +kernel
example : (rem (ofFloat (-4.0)) (ofFloat 2.0)).toFloat.toBits = (-0.0 : Float).toBits := by
  decide +kernel
example : (rem (ofFloat 1e300) (ofFloat 5e-324)) = .zero false := by decide +kernel

end Binary64

/-- The remainder of a float division, with the sign of the dividend. -/
def floatRem (x y : Float) : Float := ((Binary64.ofFloat x).rem (Binary64.ofFloat y)).toFloat

end ShaderInterface.Number
