import ConversationFlow.Shell.Arithmetic

/-!
# Real numbers

Programs read real numbers into a binary format and print them in decimal. A number of the
format is an exact fraction here, so that its digits can be computed by whole numbers: the
nearest decimal is taken, and of two the even one.
-/

namespace ConversationFlow.Shell

/-- A real number: its sign and magnitude. -/
inductive Real where
  | finite (negative : Bool) (numerator denominator : Nat)
  | infinite (negative : Bool)
  | undefined (negative : Bool)
deriving DecidableEq

/-- A binary format: the bits of a significand, and the least and the greatest exponent. -/
structure BinaryFormat where
  precision : Nat
  lowest : Int
  highest : Int

/-- The formats of the shell's own commands and of other programs. -/
def BinaryFormat.double : BinaryFormat := ⟨53, -1074, 1024⟩

def BinaryFormat.extended : BinaryFormat := ⟨64, -16445, 16384⟩

namespace Real

def isNegative : Real → Bool
  | .finite negative .. | .infinite negative | .undefined negative => negative

def isZero : Real → Bool
  | .finite _ a _ => a = 0
  | _ => false

/-- The sign and the magnitude of a fraction as one integer over a whole number. -/
private def signed (negative : Bool) (a : Nat) : Int := if negative then -(a : Int) else a

/-- Whether a number is less than another one. -/
def below : Real → Real → Bool
  | .finite m a b, .finite n c d => signed m (a * d) < signed n (c * b)
  | .infinite m, .infinite n => m && !n
  | .infinite m, .finite .. => m
  | .finite .., .infinite n => !n
  | _, _ => false

/-- Whether two numbers are the same, where zero has no sign. -/
def equals (r s : Real) : Bool :=
  match r, s with
  | .undefined _, _ | _, .undefined _ => false
  | r, s => !r.below s && !s.below r

/-- The natural number that a number is. -/
def whole? : Real → Option Nat
  | .finite negative a b => if a % b = 0 && !(negative && a ≠ 0) then some (a / b) else none
  | _ => none

/-- The exact product with a whole number. -/
def times (n : Nat) : Real → Real
  | .finite negative a b => .finite negative (a * n) b
  | r => r

/-- The exact sum. -/
def plus : Real → Real → Real
  | .finite m a b, .finite n c d =>
    let sum := signed m (a * d) + signed n (c * b)
    .finite (sum < 0 || (sum = 0 && m && n)) sum.natAbs (b * d)
  | .finite .., r => r
  | r, _ => r

/-- The quotient rounded to the nearest whole number, and to the even one of two. -/
def roundDiv (a b : Nat) : Nat :=
  let q := a / b
  let twice := 2 * (a % b)
  if twice < b || (twice = b && q % 2 = 0) then q else q + 1

/-- The fraction `a / b` times a power of a base. -/
private def scaled (base : Nat) (e : Int) (a b : Nat) : Nat × Nat :=
  if 0 ≤ e then (a * Nat.pow base e.toNat, b) else (a, b * Nat.pow base (-e).toNat)

/-- The greatest exponent of a base whose power is at most a positive fraction. -/
private def magnitude (base a b : Nat) : Int :=
  let guess : Int := (Nat.log2 a : Int) - Nat.log2 b
  let guess := if base = 10 then guess * 30103 / 100000 else guess
  let fits (e : Int) : Bool :=
    let (x, y) := scaled base e b a
    x ≤ y
  if fits (guess + 2) then guess + 2
  else if fits (guess + 1) then guess + 1
  else if fits guess then guess
  else if fits (guess - 1) then guess - 1
  else guess - 2

/-- The nearest number of a format. -/
def rounded (f : BinaryFormat) : Real → Real
  | .finite negative a b =>
    if a = 0 then .finite negative 0 1
    else
      let e := max (magnitude 2 a b - (f.precision : Int) + 1) f.lowest
      let (x, y) := scaled 2 (-e) a b
      let n := roundDiv x y
      let (x, y) := scaled 2 e n 1
      if Nat.pow 2 f.highest.toNat * y ≤ x then .infinite negative else .finite negative x y
  | r => r

/-- Whether a number is within the range of a format: it does not round to infinity, and one that
is too small for all the bits of a significand is rounded to itself. -/
def fits (f : BinaryFormat) (r : Real) : Bool :=
  match r, r.rounded f with
  | .finite .., .infinite _ => false
  | .finite _ a b, .finite _ c d =>
    let (x, y) := scaled 2 (f.lowest + f.precision - 1) 1 1
    a * d = c * b || x * d ≤ c * y
  | _, _ => true

/-! ## Reading -/

private def word? (t : Text) : Option ((Bool → Real) × Text) :=
  let low := Text.lowerAscii t
  if Text.startsWith "infinity" low then some (.infinite, t.drop 8)
  else if Text.startsWith "inf" low then some (.infinite, t.drop 3)
  else if Text.startsWith "nan" low then some (.undefined, t.drop 3)
  else none

/-- The exponent behind a number, and the text behind that. -/
private def exponent (letter : Char) (t : Text) : Int × Text :=
  match t with
  | c :: rest =>
    if c.toLower = letter && (Text.isDigit (rest.headD ' ')
        || ((rest.head? = some '-' || rest.head? = some '+') && Text.isDigit (rest.tail.headD ' ')))
    then
      match Numeral.read? false rest with
      | some n => (if n.negative then -(n.magnitude : Int) else n.magnitude, n.rest)
      | none => (0, t)
    else (0, t)
  | [] => (0, [])

/-- The number that a text begins with, and the text behind it. -/
def read? (t : Text) : Option (Real × Text) :=
  let t := t.dropWhile isSpace
  let (negative, t) := match t with
    | '-' :: t => (true, t)
    | '+' :: t => (false, t)
    | t => (false, t)
  let digits (base : Nat) (letter : Char) (t : Text) : Option (Real × Text) :=
    let whole := digitsOf base t
    let t := t.drop whole.length
    let (fraction, t) := match t with
      | '.' :: r => (digitsOf base r, if whole.isEmpty && (digitsOf base r).isEmpty then t else r.drop (digitsOf base r).length)
      | t => ([], t)
    if whole.isEmpty && fraction.isEmpty then none
    else
      let (e, t) := exponent letter t
      let e := max (-40000) (min 40000 e)
      let a := valueOf base (whole ++ fraction)
      let b := Nat.pow base fraction.length
      let (a, b) := scaled (if base = 16 then 2 else 10) e a b
      some (.finite negative a b, t)
  match word? t with
  | some (r, rest) => some (r negative, rest)
  | none =>
    match t with
    | '0' :: x :: rest =>
      if x = 'x' || x = 'X' then
        match digits 16 'p' rest with
        | some r => some r
        | none => some (.finite negative 0 1, x :: rest)
      else digits 10 'e' t
    | t => digits 10 'e' t

/-! ## Writing -/

/-- The digits with a point before the last `places`, of which there are enough. -/
private def pointed (places : Nat) (keepsPoint : Bool) (n : Nat) : Text :=
  let t := Text.ofNat n
  let t := List.replicate (places + 1 - t.length) '0' ++ t
  let whole := t.take (t.length - places)
  if places = 0 then (if keepsPoint then whole ++ ['.'] else whole)
  else whole ++ '.' :: t.drop (t.length - places)

/-- The magnitude with so many places behind the point. -/
def positional (places : Nat) (keepsPoint : Bool) (a b : Nat) : Text :=
  pointed places keepsPoint (roundDiv (a * Nat.pow 10 places) b)

/-- The digits of a magnitude, one before the point and `places` behind it, and the exponent. -/
private def significand (places a b : Nat) : Nat × Int :=
  if a = 0 then (0, 0)
  else
    let e := magnitude 10 a b
    let (x, y) := scaled 10 ((places : Int) - e) a b
    let n := roundDiv x y
    if Nat.pow 10 (places + 1) ≤ n then (n / 10, e + 1) else (n, e)

private def exponentText (upper : Bool) (e : Int) : Text :=
  let t := Text.ofNat e.natAbs
  (if upper then 'E' else 'e') :: (if e < 0 then '-' else '+')
    :: (List.replicate (2 - t.length) '0' ++ t)

/-- The magnitude with an exponent. -/
def scientific (upper keepsPoint : Bool) (places a b : Nat) : Text :=
  let (n, e) := significand places a b
  pointed places keepsPoint n ++ exponentText upper e

/-- A decimal without the zeros at its end. -/
private def shortened (t : Text) : Text :=
  if t.contains '.' then
    let t := (t.reverse.dropWhile (· = '0'))
    ((if t.head? = some '.' then t.drop 1 else t)).reverse
  else t

/-- The magnitude in the shorter of both forms, with so many significant digits. -/
def general (upper alternate : Bool) (digits a b : Nat) : Text :=
  let digits := max digits 1
  let (n, e) := significand (digits - 1) a b
  if -4 ≤ e && e < digits then
    let t := positional ((digits : Int) - 1 - e).toNat alternate a b
    if alternate then t else shortened t
  else
    let t := pointed (digits - 1) alternate n
    (if alternate then t else shortened t) ++ exponentText upper e

/-- The magnitude of a number of a format in base sixteen with a binary exponent. Without a number
of places all digits are written that there are. -/
def hexadecimal (f : BinaryFormat) (upper keepsPoint : Bool) (places : Option Nat) (a b : Nat) :
    Text :=
  let count := (f.precision - 1) / 4
  let least := f.lowest + f.precision - 1
  let e := if a = 0 then 0 else max (magnitude 2 a b) least
  let shown : Int := if a = 0 then 0 else e - ((f.precision - 1) - 4 * count : Nat)
  let (x, y) := scaled 16 count a b
  let (x, y) := scaled 2 (-shown) x y
  let kept := min count (places.getD count)
  let n := roundDiv x (y * Nat.pow 16 (count - kept))
  let digits := Nat.toDigits 16 n
  let digits := List.replicate (kept + 1 - digits.length) '0' ++ digits
  let whole := digits.take (digits.length - kept)
  let fraction := digits.drop (digits.length - kept)
  let fraction := match places with
    | none => (fraction.reverse.dropWhile (· = '0')).reverse
    | some p => fraction ++ List.replicate (p - kept) '0'
  let point : Text := if fraction.isEmpty && !keepsPoint then [] else ['.']
  let sign := if shown < 0 then '-' else '+'
  let t := whole ++ point ++ fraction ++ 'p' :: sign :: Text.ofNat shown.natAbs
  if upper then t.map Char.toUpper else t

end Real

end ConversationFlow.Shell
