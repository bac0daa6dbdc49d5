import ConversationFlow.Text.Basic
import ConversationFlow.Value.Basic

/-!
# Decimals

Binary floating-point numbers as texts: the number that a text writes, and the decimal text of a
number: the fewest digits that read back as the number, of those the nearest one, written
positionally at every magnitude.
-/

namespace ConversationFlow.Decimal

/-! ## Reading decimals

The number that a text writes: an optional sign, digits with at most one point
among them, and an optional exponent; or a name of infinity or of no number, in
any case. At least one digit stands beside the point. -/

/-- The digits of a number without sign: whole part, fraction and exponent. -/
structure Numeral where
  whole : Text
  fraction : Text
  exponent : Int
deriving DecidableEq

private def signed? : Text → Bool × Text
  | '-' :: t => (true, t)
  | '+' :: t => (false, t)
  | t => (false, t)

/-- The exponent that follows the digits, zero if nothing does. -/
private def exponent? : Text → Option Int
  | [] => some 0
  | e :: t =>
    if e = 'e' ∨ e = 'E' then
      let (negative, digits) := signed? t
      (Text.toNat? digits).map fun n => if negative then -(n : Int) else n
    else none

/-- Reads digits, point and exponent. -/
def Numeral.read? (t : Text) : Option Numeral :=
  let whole := t.takeWhile Text.isDigit
  let rest := t.dropWhile Text.isDigit
  let (fraction, rest) : Text × Text :=
    match rest with
    | '.' :: rest => (rest.takeWhile Text.isDigit, rest.dropWhile Text.isDigit)
    | _ => ([], rest)
  if whole.isEmpty && fraction.isEmpty then none
  else (exponent? rest).map fun e => ⟨whole, fraction, e⟩

/-- The nearest binary number. Beyond the range of exponents the answer is zero or
infinity, whatever the digits are. -/
def Numeral.toFloat (n : Numeral) : Float :=
  let digits := (Text.toNat? (n.whole ++ n.fraction)).getD 0
  let exponent := n.exponent - n.fraction.length
  let top : Int := (Text.ofNat digits).length + exponent
  if digits = 0 || top < -330 then 0.0
  else if top > 310 then 1.0 / 0.0
  else Float.ofScientific digits (decide (exponent < 0)) exponent.natAbs

/-- The number a text writes. -/
def toFloat? (t : Text) : Option Float :=
  let (negative, body) := signed? t
  let name := Text.lowerAscii body
  let magnitude : Option Float :=
    if name = "inf" || name = "infinity" then some (1.0 / 0.0)
    else if name = "nan" then some (0.0 / 0.0)
    else (Numeral.read? body).map Numeral.toFloat
  magnitude.map fun x => if negative then -x else x

/-! ## Shortest decimals

A number is taken apart into `m * 2 ^ q`, and the search runs in exact arithmetic on the two
neighbours of the number on each decimal grid. -/

/-- A finite positive number, `mantissa * 2 ^ exponent`. -/
structure Binary where
  mantissa : Nat
  exponent : Int
deriving DecidableEq

/-- The magnitude of a finite number. -/
def Binary.ofFloat (x : Float) : Binary :=
  let bits := x.toBits.toNat
  let field : Nat := bits / wordSize 52 % wordSize 11
  let fraction : Nat := bits % wordSize 52
  if field = 0 then ⟨fraction, -1074⟩ else ⟨fraction + wordSize 52, (field : Int) - 1075⟩

/-- The numbers that round to a given one, as numerators over one denominator. The
ends belong to it when `closed` holds. -/
structure Interval where
  low : Nat
  value : Nat
  high : Nat
  denominator : Nat
  closed : Bool

/-- The gap below a power of two is half the gap above it. -/
def Binary.interval (b : Binary) : Interval :=
  let below := if b.mantissa = wordSize 52 ∧ b.exponent ≠ -1074 then 1 else 2
  let scale := Nat.pow 2 (b.exponent - 2).toNat
  { low := (4 * b.mantissa - below) * scale
    value := 4 * b.mantissa * scale
    high := (4 * b.mantissa + 2) * scale
    denominator := Nat.pow 2 (2 - b.exponent).toNat
    closed := b.mantissa % 2 = 0 }

/-- The power of ten `k` with `10 ^ (k - 1) ≤ value < 10 ^ k`. -/
def Interval.magnitude (i : Interval) : Int :=
  if i.denominator ≤ i.value then (Text.ofNat (i.value / i.denominator)).length
  else
    let places := (Text.ofNat (i.denominator / i.value)).length - 1
    if i.value * Nat.pow 10 places < i.denominator then -(places : Int) else 1 - (places : Int)

/-- A decimal number, `digits * 10 ^ exponent`. -/
structure Scientific where
  digits : Nat
  exponent : Int
deriving DecidableEq

/-- Whether a point of the grid of step `10 ^ s` rounds to the number. -/
private def Interval.holds (i : Interval) (s : Int) (digits : Nat) : Bool :=
  let point := digits * Nat.pow 10 s.toNat * i.denominator
  let unit := Nat.pow 10 (-s).toNat
  if i.closed then decide (i.low * unit ≤ point ∧ point ≤ i.high * unit)
  else decide (i.low * unit < point ∧ point < i.high * unit)

/-- The point of the grid of step `10 ^ s` that lies nearest, if one rounds to the number;
of two at one distance the upper. -/
def Interval.onGrid? (i : Interval) (s : Int) : Option Scientific :=
  let step := Nat.pow 10 s.toNat * i.denominator
  let scaled := i.value * Nat.pow 10 (-s).toNat
  let floor := scaled / step
  let lower := i.holds s floor
  let upper := i.holds s (floor + 1)
  if lower && upper then
    if 2 * (scaled % step) < step then some ⟨floor, s⟩ else some ⟨floor + 1, s⟩
  else if lower then some ⟨floor, s⟩
  else if upper then some ⟨floor + 1, s⟩
  else none

/-- The shortest decimal of a positive number: seventeen digits always suffice. The
coarsest grid has the power of ten above the number as its first point. -/
def Interval.shortest (i : Interval) : Scientific :=
  let top := i.magnitude
  ((List.range 18).findSome? fun n : Nat => i.onGrid? (top - n)).getD ⟨0, 0⟩

/-- Digits with a point where the exponent puts it, and zeros where it needs them. -/
def Scientific.positional (d : Scientific) : Text :=
  let digits := Text.ofNat d.digits
  let places := (-d.exponent).toNat
  if 0 ≤ d.exponent then digits ++ List.replicate d.exponent.toNat '0'
  else if places < digits.length then
    digits.take (digits.length - places) ++ '.' :: digits.drop (digits.length - places)
  else '0' :: '.' :: (List.replicate (places - digits.length) '0' ++ digits)

/-- The text of a number: `NaN`, `inf` and `-inf` for those that have no digits. -/
def ofFloat (x : Float) : Text :=
  if x.isNaN then "NaN"
  else
    let sign : Text := if x.toBits.toNat / wordSize 63 = 1 then "-" else ""
    if x.isInf then sign ++ "inf"
    else
      let b := Binary.ofFloat x
      if b.mantissa = 0 then sign ++ "0" else sign ++ b.interval.shortest.positional

/-! ## Whole decimals

A binary floating-point number without its fraction: the nearest whole number, of two
the even one.
-/

/-- The whole number nearest to `num / den`, of two the even one. -/
def roundedQuotient (num den : Nat) : Nat :=
  let floor := num / den
  let rest := num % den
  if 2 * rest < den then floor
  else if den < 2 * rest then floor + 1
  else floor + floor % 2

/-- The whole number nearest to a magnitude. -/
def Binary.rounded (b : Binary) : Nat :=
  roundedQuotient (b.mantissa * Nat.pow 2 b.exponent.toNat) (Nat.pow 2 (-b.exponent).toNat)

/-- A number without its fraction, with its sign. -/
def wholeText (x : Float) : Text :=
  if x.isNaN then "NaN"
  else
    let sign : Text := if x.toBits.toNat / wordSize 63 = 1 then "-" else ""
    if x.isInf then sign ++ "inf" else sign ++ Text.ofNat (Binary.ofFloat x).rounded

end ConversationFlow.Decimal
