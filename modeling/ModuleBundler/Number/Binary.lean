/-!
# Binary floating-point values

Values of the IEEE 754 binary interchange formats, kept as their bit patterns. Only what the
packager needs is here: rounding an exact non-negative ratio to the nearest value of a format
(ties go to the even significand, and a ratio above the largest finite value becomes infinity),
reading the exact value back as significand and binary exponent, widening a single to a
double, which is exact, and the product, quotient, sum, negation and order of doubles.

All arithmetic is on natural numbers, so every result is the correctly rounded one.
-/

namespace ModuleBundler

/-- An IEEE binary interchange format: significand bits (the hidden bit included) and exponent
bits. -/
structure FloatFormat where
  precision : Nat
  exponentBits : Nat
  deriving DecidableEq, Repr

namespace FloatFormat

/-- The 64-bit format. -/
def double : FloatFormat := ⟨53, 11⟩

/-- The 32-bit format. -/
def single : FloatFormat := ⟨24, 8⟩

/-- The exponent bias. -/
def bias (f : FloatFormat) : Nat := Nat.pow 2 (f.exponentBits - 1) - 1

/-- The all-ones exponent field, which marks infinities and not-a-number. -/
def maxField (f : FloatFormat) : Nat := Nat.pow 2 f.exponentBits - 1

/-- The binary exponent of the last significand bit of the smallest normal values, which is
also the exponent of every subnormal value. -/
def minUlpExp (f : FloatFormat) : Int := 1 - (f.bias : Int) - ((f.precision : Int) - 1)

/-- The binary exponent of the last significand bit of the largest finite values. -/
def maxUlpExp (f : FloatFormat) : Int := (f.bias : Int) - ((f.precision : Int) - 1)

/-- The smallest significand of a normal value. -/
def minNormal (f : FloatFormat) : Nat := Nat.pow 2 (f.precision - 1)

end FloatFormat

/-- A value of a binary format, as its bit pattern. -/
structure BinaryFloat (fmt : FloatFormat) where
  bits : Nat
  deriving DecidableEq, Repr

/-- The parts of a value: a finite one is `significand * 2 ^ exponent` with the sign. -/
inductive FloatParts where
  | finite (negative : Bool) (significand : Nat) (exponent : Int)
  | infinite (negative : Bool)
  | notANumber
  deriving DecidableEq, Repr

namespace BinaryFloat

variable {fmt : FloatFormat}

/-- The fraction field. -/
def fraction (x : BinaryFloat fmt) : Nat := x.bits % Nat.pow 2 (fmt.precision - 1)

/-- The exponent field. -/
def field (x : BinaryFloat fmt) : Nat := (x.bits / Nat.pow 2 (fmt.precision - 1)) % Nat.pow 2 fmt.exponentBits

/-- The sign bit. -/
def negative (x : BinaryFloat fmt) : Bool :=
  (x.bits / Nat.pow 2 (fmt.precision - 1 + fmt.exponentBits)) % 2 == 1

/-- The exact value the bits stand for. -/
def parts (x : BinaryFloat fmt) : FloatParts :=
  if x.field = fmt.maxField then
    if x.fraction = 0 then .infinite x.negative else .notANumber
  else if x.field = 0 then .finite x.negative x.fraction fmt.minUlpExp
  else .finite x.negative (x.fraction + fmt.minNormal) (fmt.minUlpExp + ((x.field : Int) - 1))

/-- Whether the value is neither infinite nor not-a-number. -/
def isFinite (x : BinaryFloat fmt) : Bool := x.field != fmt.maxField

/-- Assemble bits from a sign, a field and a fraction. -/
def pack (negative : Bool) (field fraction : Nat) : BinaryFloat fmt :=
  ⟨(if negative then Nat.pow 2 (fmt.precision - 1 + fmt.exponentBits) else 0)
    + field * Nat.pow 2 (fmt.precision - 1) + fraction⟩

/-- Positive infinity. -/
def infinity : BinaryFloat fmt := pack false fmt.maxField 0

/-- Positive zero. -/
def zero : BinaryFloat fmt := ⟨0⟩

/-- The significand `m` at ulp exponent `e`, where `m < 2 ^ precision` and `e` is at least the
format's least: normal when `m` reaches the hidden bit, else subnormal. -/
def ofSignificand (negative : Bool) (m : Nat) (e : Int) : BinaryFloat fmt :=
  if e > fmt.maxUlpExp then pack negative fmt.maxField 0
  else if m < fmt.minNormal then pack negative 0 m
  else pack negative ((e - fmt.minUlpExp).toNat + 1) (m - fmt.minNormal)

end BinaryFloat

/-- `num / (den * 2 ^ shift)` for an integer shift, rounded to the nearest natural number, a
tie to the even one. -/
def roundScaled (num den : Nat) (shift : Int) : Nat :=
  let n := if shift < 0 then num * Nat.pow 2 (-shift).toNat else num
  let d := if shift < 0 then den else den * Nat.pow 2 shift.toNat
  let q := n / d
  let r := n % d
  if 2 * r > d then q + 1
  else if 2 * r < d then q
  else if q % 2 = 0 then q else q + 1

/-- The binary exponent `k` with `2 ^ k ≤ num / den < 2 ^ (k + 1)`, for positive `num` and
`den`. -/
def floorLog2Ratio (num den : Nat) : Int :=
  let k : Int := (num.log2 : Int) - (den.log2 : Int)
  -- the estimate is off by at most one
  if k ≥ 0 then
    if num < den * Nat.pow 2 k.toNat then k - 1 else k
  else
    if num * Nat.pow 2 (-k).toNat < den then k - 1 else k

namespace BinaryFloat

variable {fmt : FloatFormat}

/-- The value of the format nearest to `num / den`, a tie to the even significand; above the
largest finite value the result is infinity. -/
def ofRatio (negative : Bool) (num den : Nat) : BinaryFloat fmt :=
  if num = 0 || den = 0 then pack negative 0 0
  else
    let top := floorLog2Ratio num den
    let ulp := max (top - ((fmt.precision : Int) - 1)) fmt.minUlpExp
    let m := roundScaled num den ulp
    -- rounding up may carry into one more bit
    if m = Nat.pow 2 fmt.precision then ofSignificand negative (m / 2) (ulp + 1)
    else ofSignificand negative m ulp

/-- The value nearest to `digits * 10 ^ exp10`. -/
def ofDecimal (negative : Bool) (digits : Nat) (exp10 : Int) : BinaryFloat fmt :=
  if exp10 ≥ 0 then ofRatio negative (digits * Nat.pow 10 exp10.toNat) 1
  else ofRatio negative digits (Nat.pow 10 (-exp10).toNat)

/-- The exact value in another format, rounded where it does not fit. -/
def convert {target : FloatFormat} (x : BinaryFloat fmt) : BinaryFloat target :=
  match x.parts with
  | .finite neg m e =>
    if e ≥ 0 then ofRatio neg (m * Nat.pow 2 e.toNat) 1 else ofRatio neg m (Nat.pow 2 (-e).toNat)
  | .infinite neg => pack neg target.maxField 0
  | .notANumber => pack false target.maxField 1

end BinaryFloat

/-- A 64-bit value. -/
abbrev Double := BinaryFloat FloatFormat.double

/-- A 32-bit value. -/
abbrev Single := BinaryFloat FloatFormat.single

namespace Double

/-- The exact quotient `a / b` rounded to a double; zero over zero is not-a-number and any
other value over zero is infinite. -/
def div (a b : Double) : Double :=
  match a.parts, b.parts with
  | .finite na ma ea, .finite nb mb eb =>
    let neg := na != nb
    if mb = 0 then
      if ma = 0 then BinaryFloat.pack false FloatFormat.double.maxField 1
      else BinaryFloat.pack neg FloatFormat.double.maxField 0
    else
      let e := ea - eb
      if e ≥ 0 then BinaryFloat.ofRatio neg (ma * Nat.pow 2 e.toNat) mb
      else BinaryFloat.ofRatio neg ma (mb * Nat.pow 2 (-e).toNat)
  | _, _ => BinaryFloat.pack false FloatFormat.double.maxField 1

/-- The exact product `a * b` rounded to a double; zero times infinity is not-a-number. -/
def mul (a b : Double) : Double :=
  let nan : Double := BinaryFloat.pack false FloatFormat.double.maxField 1
  let inf (negative : Bool) : Double := BinaryFloat.pack negative FloatFormat.double.maxField 0
  match a.parts, b.parts with
  | .finite na ma ea, .finite nb mb eb =>
    let e := ea + eb
    if e ≥ 0 then BinaryFloat.ofRatio (na != nb) (ma * mb * Nat.pow 2 e.toNat) 1
    else BinaryFloat.ofRatio (na != nb) (ma * mb) (Nat.pow 2 (-e).toNat)
  | .infinite na, .finite nb mb _ => if mb = 0 then nan else inf (na != nb)
  | .finite na ma _, .infinite nb => if ma = 0 then nan else inf (na != nb)
  | .infinite na, .infinite nb => inf (na != nb)
  | _, _ => nan

/-- The value with its sign bit flipped. -/
def neg (x : Double) : Double :=
  let signBit := Nat.pow 2 (FloatFormat.double.precision - 1 + FloatFormat.double.exponentBits)
  ⟨if x.negative then x.bits - signBit else x.bits + signBit⟩

/-- Whether the value is a zero of either sign. -/
def isZero (x : Double) : Bool := x.field == 0 && x.fraction == 0

/-- A natural number as a double. -/
def ofNat (n : Nat) : Double := BinaryFloat.ofRatio false n 1

/-- The signed significand of a finite value scaled to the binary exponent `e`, which is at most
its own. -/
def scaledTo (negative : Bool) (m : Nat) (own e : Int) : Int :=
  let v : Int := (m * Nat.pow 2 (own - e).toNat : Nat)
  if negative then -v else v

/-- The exact sum `a + b` rounded to a double. An exact zero sum is positive unless both terms are
negative; an infinity absorbs a finite term, two opposite infinities or a not-a-number give
not-a-number. -/
def add (a b : Double) : Double :=
  let nan : Double := BinaryFloat.pack false FloatFormat.double.maxField 1
  match a.parts, b.parts with
  | .finite na ma ea, .finite nb mb eb =>
    let e := min ea eb
    let s := scaledTo na ma ea e + scaledTo nb mb eb e
    if s = 0 then BinaryFloat.pack (na && nb) 0 0
    else if e ≥ 0 then BinaryFloat.ofRatio (s < 0) (s.natAbs * Nat.pow 2 e.toNat) 1
    else BinaryFloat.ofRatio (s < 0) s.natAbs (Nat.pow 2 (-e).toNat)
  | .infinite n, .finite .. => BinaryFloat.pack n FloatFormat.double.maxField 0
  | .finite .., .infinite n => BinaryFloat.pack n FloatFormat.double.maxField 0
  | .infinite n, .infinite n' => if n = n' then BinaryFloat.pack n FloatFormat.double.maxField 0 else nan
  | _, _ => nan

/-- Whether `a < b`; not-a-number is below and above nothing. -/
def lt (a b : Double) : Bool :=
  match a.parts, b.parts with
  | .finite na ma ea, .finite nb mb eb =>
    let e := min ea eb
    scaledTo na ma ea e < scaledTo nb mb eb e
  | .infinite n, .finite .. => n
  | .finite .., .infinite n => !n
  | .infinite n, .infinite n' => n && !n'
  | _, _ => false

end Double

end ModuleBundler
