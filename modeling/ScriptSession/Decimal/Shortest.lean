/-!
# Shortest decimals

A binary floating point number is shown by the fewest decimal digits that still read back as the
same number, and among those by the digits nearest to it. The number is `m · 2 ^ q`; the reals
that round to it form an interval around it, closed exactly when `m` is even. For one digit, two
digits and so on up to seventeen the two neighbours of the number on that decimal grid are tried
in exact arithmetic, and the first grid with a hit wins.
-/

namespace ScriptSession
namespace Decimal

/-- The decimal `digits · 10 ^ exponent`. -/
structure Digits where
  digits : Nat
  exponent : Int
deriving DecidableEq, Repr

/-- A positive fraction. -/
structure Fraction where
  num : Nat
  den : Nat

/-- The fraction `n · b ^ e`. -/
def Fraction.scaled (n b : Nat) (e : Int) : Fraction :=
  if 0 ≤ e then ⟨n * b.pow e.toNat, 1⟩ else ⟨n, b.pow (-e).toNat⟩

/-- Less, by cross multiplication. -/
def Fraction.lt (x y : Fraction) : Bool := x.num * y.den < y.num * x.den

/-- At most, by cross multiplication. -/
def Fraction.le (x y : Fraction) : Bool := x.num * y.den ≤ y.num * x.den

/-- How many decimal digits a number has. -/
def digitCount (n : Nat) : Nat := (Nat.toDigits 10 n).length

/-- The power of ten at or below a positive fraction. -/
def Fraction.magnitude (x : Fraction) : Int :=
  if x.den ≤ x.num then (digitCount (x.num / x.den) : Int) - 1
  else
    let count := digitCount (x.den / x.num)
    if x.den ≤ x.num * Nat.pow 10 (count - 1) then -((count : Int) - 1) else -(count : Int)

/-- The reals that round to `m · 2 ^ q`, as the two ends in units of `2 ^ (q - 2)`. A power of
two that has a finer grid below it is nearer to its lower neighbour. -/
def ends (m : Nat) (finerBelow : Bool) : Nat × Nat :=
  (4 * m - (if finerBelow then 1 else 2), 4 * m + 2)

/-- Whether a decimal lies in the interval of the reals that round to the number. -/
def reads (m : Nat) (q : Int) (finerBelow : Bool) (d : Digits) : Bool :=
  let x := Fraction.scaled d.digits 10 d.exponent
  let (lo, hi) := ends m finerBelow
  let low := Fraction.scaled lo 2 (q - 2)
  let high := Fraction.scaled hi 2 (q - 2)
  if m % 2 = 0 then low.le x && x.le high else low.lt x && x.lt high

/-- The better of the neighbours `d` and `d + 1` of the number on one grid, if either reads back.
Of two that do, the nearer one counts, and the lower one when they are equally near. -/
def onGrid (m : Nat) (q : Int) (finerBelow : Bool) (p : Int) : Option Digits :=
  let v := Fraction.scaled m 2 q
  let unit := Fraction.scaled 1 10 p
  let d := v.num * unit.den / (v.den * unit.num)
  let below : Digits := ⟨d, p⟩
  let above : Digits := ⟨d + 1, p⟩
  match reads m q finerBelow below, reads m q finerBelow above with
  | true, false => some below
  | false, true => some above
  | false, false => none
  | true, true =>
    if 2 * (v.num * unit.den) ≤ (2 * d + 1) * (v.den * unit.num) then some below else some above

/-- The first grid with a hit, from the coarsest on. -/
def firstGrid (m : Nat) (q : Int) (finerBelow : Bool) (top : Int) : Nat → Nat → Option Digits
  | 0, _ => none
  | left + 1, k =>
    match onGrid m q finerBelow (top - k) with
    | some d => some d
    | none => firstGrid m q finerBelow top left (k + 1)

/-- The shortest decimal that reads back as `m · 2 ^ q`. -/
def shortest (m : Nat) (q : Int) (finerBelow : Bool) : Digits :=
  (firstGrid m q finerBelow (Fraction.scaled m 2 q).magnitude 20 0).getD ⟨m, 0⟩

/-! ## Numbers of double width -/

/-- A finite number of double width without its sign: `m · 2 ^ q`. -/
structure Binary where
  mantissa : Nat
  exponent : Int
deriving DecidableEq, Repr

/-- What the bits of a double say. -/
inductive Reading where
  | nan
  | infinite (negative : Bool)
  | finite (negative : Bool) (value : Binary)
deriving DecidableEq, Repr

/-- Take the bits of a double apart. -/
def read (x : Float) : Reading :=
  let bits := x.toBits.toNat
  let negative := Nat.pow 2 63 ≤ bits
  let biased : Nat := bits / Nat.pow 2 52 % Nat.pow 2 11
  let fraction : Nat := bits % Nat.pow 2 52
  if biased = 2047 then (if fraction = 0 then .infinite negative else .nan)
  else if biased = 0 then .finite negative ⟨fraction, -1074⟩
  else .finite negative ⟨fraction + Nat.pow 2 52, (biased : Int) - 1075⟩

/-- The shortest decimal of a positive finite double. -/
def Binary.shortest (b : Binary) : Digits :=
  Decimal.shortest b.mantissa b.exponent (b.mantissa = Nat.pow 2 52 && b.exponent ≠ -1074)

/-! ## Writing decimals -/

/-- The digits without the zeros at their end, and the exponent that goes with them. -/
def Digits.normal (d : Digits) : List Char × Int :=
  let cs := Nat.toDigits 10 d.digits
  let kept := (cs.reverse.dropWhile (· = '0')).reverse
  if kept.isEmpty then (['0'], 0) else (kept, d.exponent + ((cs.length - kept.length : Nat) : Int))

/-- Positional notation. A whole number has no point. -/
def Digits.positional (d : Digits) : String :=
  let (cs, e) := d.normal
  if 0 ≤ e then String.ofList (cs ++ List.replicate e.toNat '0')
  else
    let places := (-e).toNat
    let padded := List.replicate (places + 1 - cs.length) '0' ++ cs
    let whole := padded.length - places
    String.ofList (padded.take whole ++ '.' :: padded.drop whole)

/-- Scientific notation: one digit, the rest behind a point, and the exponent without a sign
when it is not negative. -/
def Digits.scientific (d : Digits) : String :=
  let (cs, e) := d.normal
  let power := e + ((cs.length - 1 : Nat) : Int)
  let tail := cs.drop 1
  String.ofList (cs.take 1 ++ (if tail.isEmpty then [] else '.' :: tail)) ++ "e" ++ toString power

end Decimal
end ScriptSession
