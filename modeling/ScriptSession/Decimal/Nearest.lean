import ScriptSession.Decimal.Shortest

/-!
# Nearest doubles

The double nearest to a decimal, in exact arithmetic: scale the fraction so that its whole part
has 53 binary digits, divide, and round to nearest with ties to even. Numbers too small for a
full mantissa keep the smallest exponent; numbers too large are infinite.
-/

namespace ScriptSession
namespace Decimal

/-- Half of the divisor decides: up above it, down below it, and to the even neighbour on it. -/
def roundHalfEven (num den : Nat) : Nat :=
  let q := num / den
  let r := num % den
  if 2 * r < den then q
  else if den < 2 * r then q + 1
  else if q % 2 = 0 then q else q + 1

/-- The binary exponent of the last mantissa digit of a positive fraction. -/
def lastExponent (x : Fraction) : Int :=
  let guess : Int := (x.num.log2 : Int) - (x.den.log2 : Int)
  -- The quotient lies between `2 ^ (guess - 1)` and `2 ^ (guess + 1)`.
  let below := if (Fraction.scaled 1 2 guess).le x then guess else guess - 1
  max (below - 52) (-1074)

/-- The bits of the double nearest to a positive fraction. -/
def nearestBits (x : Fraction) : Nat :=
  let e := lastExponent x
  let unit := Fraction.scaled 1 2 e
  let m := roundHalfEven (x.num * unit.den) (x.den * unit.num)
  let (m, e) := if m = Nat.pow 2 53 then (Nat.pow 2 52, e + 1) else (m, e)
  if m < Nat.pow 2 52 then m
  else
    let biased := (e + 1075).toNat
    if 2047 ≤ biased then 2047 * Nat.pow 2 52
    else biased * Nat.pow 2 52 + (m - Nat.pow 2 52)

/-- The double nearest to `digits · 10 ^ exponent`, with a sign. -/
def toDouble (negative : Bool) (digits : Nat) (exponent : Int) : Float :=
  let bits :=
    if digits = 0 then 0
    else if exponent + digitCount digits > 400 then 2047 * Nat.pow 2 52
    else if exponent + digitCount digits < -400 then 0
    else nearestBits (Fraction.scaled digits 10 exponent)
  Float.ofBits (UInt64.ofNat (if negative then bits + Nat.pow 2 63 else bits))

/-- The value of decimal digits. -/
def ofDigits (cs : List Char) : Nat := cs.foldl (fun n c => 10 * n + (c.toNat - '0'.toNat)) 0

/-- Split a list at the first place where a test succeeds, that place left out. -/
def splitAtFirst (p : Char → Bool) (cs : List Char) : List Char × Option (List Char) :=
  match cs.dropWhile (fun c => !p c) with
  | [] => (cs, none)
  | _ :: rest => (cs.takeWhile (fun c => !p c), some rest)

/-- The double a literal stands for: digits, perhaps a fraction, perhaps an exponent, with a sign
in front of each number. The literal is known to be well formed. -/
def ofLiteral (literal : List Char) : Float :=
  let (negative, cs) := match literal with
    | '-' :: cs => (true, cs)
    | '+' :: cs => (false, cs)
    | cs => (false, cs)
  let (body, power) := splitAtFirst (fun c => c == 'e' || c == 'E') cs
  let (whole, fraction) := splitAtFirst (· == '.') body
  let fraction := fraction.getD []
  let e : Int := match power with
    | some ('-' :: ds) => -(ofDigits ds : Int)
    | some ('+' :: ds) => ofDigits ds
    | some ds => ofDigits ds
    | none => 0
  toDouble negative (ofDigits (whole ++ fraction)) (e - fraction.length)

end Decimal
end ScriptSession
