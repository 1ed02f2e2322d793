import ModuleBundler.Number.Binary

/-!
# Shortest decimal text of a double

A finite double is written with the fewest significant digits that read back as the same double:
the decimal has to lie in the interval of reals that round to it (its ends included when the
significand is even). For 1, 2, … 17 digits the two neighbours of the value on that decimal grid
are tried; the first grid with a hit wins, and of two hits the nearer one (a tie to the even
digit string). Seventeen digits always hit.

The digits are then laid out as JSON numbers are: positionally with a `.0` for an integral value
up to sixteen digits, positionally with a point inside or after `0.` down to four leading zeros,
and otherwise as a mantissa with a signed exponent (`1e+16`, `2.5e-8`). Messages about a value
write it the same way.
-/

namespace ModuleBundler

/-- Decimal digits `digits * 10 ^ exponent`, the digit string without trailing zeros. -/
structure DecimalDigits where
  digits : Nat
  exponent : Int
  deriving DecidableEq, Repr

/-- The decimal exponent `k` with `10 ^ k ≤ num / den < 10 ^ (k + 1)`, for positive `num` and
`den`. -/
def floorLog10Ratio (num den : Nat) : Int :=
  let below (k : Int) : Bool :=
    -- whether num / den < 10 ^ k
    if k ≥ 0 then num < den * Nat.pow 10 k.toNat else num * Nat.pow 10 (-k).toNat < den
  let guess : Int := (((num.log2 : Int) - (den.log2 : Int)) * 30103) / 100000
  -- the guess is within two of the answer
  let rec down (fuel : Nat) (k : Int) : Int :=
    match fuel with
    | 0 => k
    | fuel + 1 => if below k then down fuel (k - 1) else k
  let rec up (fuel : Nat) (k : Int) : Int :=
    match fuel with
    | 0 => k
    | fuel + 1 => if below (k + 1) then k else up fuel (k + 1)
  up 8 (down 8 (guess + 2))

/-- Drop trailing zero digits, raising the exponent. -/
def DecimalDigits.trim (d : DecimalDigits) : DecimalDigits :=
  go 20 d
where
  go : Nat → DecimalDigits → DecimalDigits
    | 0, d => d
    | fuel + 1, d =>
      if d.digits ≠ 0 ∧ d.digits % 10 = 0 then go fuel ⟨d.digits / 10, d.exponent + 1⟩ else d

/-- Scale a rational `num / den` times `10 ^ e` to a pair with a natural denominator. -/
def scaleDecimal (num den : Nat) (e : Int) : Nat × Nat :=
  if e ≥ 0 then (num * Nat.pow 10 e.toNat, den) else (num, den * Nat.pow 10 (-e).toNat)

/-- The shortest digits of the positive value `4 m * 2 ^ (e - 2)`, whose rounding interval
reaches `lowGap` quarter-ulps below and two above, both ends included when `inclusive`. -/
def shortestDigits (m : Nat) (e : Int) (lowGap : Nat) (inclusive : Bool) : DecimalDigits :=
  -- the value and the interval ends as fractions over one binary denominator
  let scale := if e ≥ 2 then Nat.pow 2 (e - 2).toNat else 1
  let den := if e ≥ 2 then 1 else Nat.pow 2 (2 - e).toNat
  let x := 4 * m * scale
  let lo := (4 * m - lowGap) * scale
  let hi := (4 * m + 2) * scale
  let top := floorLog10Ratio x den
  -- whether `d * 10 ^ q` lies in the interval
  let inside (d : Nat) (q : Int) : Bool :=
    let (cn, cd) := scaleDecimal d 1 q
    let l := lo * cd
    let h := hi * cd
    let c := cn * den
    if inclusive then l ≤ c && c ≤ h else l < c && c < h
  let attempt (k : Nat) : Option DecimalDigits :=
    let q : Int := top - (k : Int) + 1
    let (xn, xd) := scaleDecimal x den (-q)
    let dLo := xn / xd
    let dHi := dLo + 1
    match inside dLo q, inside dHi q with
    | true, true =>
      -- the nearer of the two; at an exact tie the even one
      let below := xn - dLo * xd
      let above := dHi * xd - xn
      if below < above then some ⟨dLo, q⟩
      else if above < below then some ⟨dHi, q⟩
      else if dLo % 2 = 0 then some ⟨dLo, q⟩ else some ⟨dHi, q⟩
    | true, false => some ⟨dLo, q⟩
    | false, true => some ⟨dHi, q⟩
    | false, false => none
  let fallback : DecimalDigits :=
    let q : Int := top - 16
    let (xn, xd) := scaleDecimal x den (-q)
    ⟨roundScaled xn xd 0, q⟩
  (((List.range 17).map (· + 1)).findSome? attempt).getD fallback |>.trim

namespace Double

/-- The shortest digits of a finite non-zero value's magnitude; none for zero or a value that
is not finite. -/
def digits? (x : Double) : Option DecimalDigits :=
  match x.parts with
  | .finite _ m e =>
    if m = 0 then none
    else
      -- at the bottom of a binade the gap below is half the gap above
      let lowGap := if m = FloatFormat.double.minNormal ∧ x.field > 1 then 1 else 2
      some (shortestDigits m e lowGap (m % 2 == 0))
  | _ => none

end Double

/-- A string of `n` zero digits. -/
def zeroDigits (n : Nat) : String := String.ofList (List.replicate n '0')

/-- Lay out digits `s` whose last digit has weight `10 ^ k`, as JSON writes numbers. -/
def layoutDecimal (s : String) (k : Int) : String :=
  let n : Int := s.length
  let kk := n + k
  let cs := s.toList
  if 0 ≤ k ∧ kk ≤ 16 then s ++ zeroDigits k.toNat ++ ".0"
  else if 0 < kk ∧ kk ≤ 16 then
    String.ofList (cs.take kk.toNat) ++ "." ++ String.ofList (cs.drop kk.toNat)
  else if -5 < kk ∧ kk ≤ 0 then "0." ++ zeroDigits (-kk).toNat ++ s
  else
    let mantissa := if n = 1 then s else String.ofList (cs.take 1) ++ "." ++ String.ofList (cs.drop 1)
    mantissa ++ "e" ++ (if kk - 1 < 0 then "" else "+") ++ toString (kk - 1)

namespace Double

/-- The text of a finite value; none for infinities and not-a-number. -/
def toText? (x : Double) : Option String :=
  if !x.isFinite then none
  else
    let sign := if x.negative then "-" else ""
    match x.digits? with
    | some d => some (sign ++ layoutDecimal (toString d.digits) d.exponent)
    | none => some (sign ++ "0.0")

end Double

end ModuleBundler
