import ConversationFlow.Shell.Real

/-!
# Conversions

A conversion writes a text or a number in a given form: with a sign, in a base, with so
many places, and padded to a width. Widths count bytes.
-/

namespace ConversationFlow.Shell

/-- The form of a conversion. Its letter tells what it converts. -/
structure Conversion where
  flags : List Char := []
  width : Nat := 0
  precision : Option Nat := none
  letter : Char

namespace Conversion

/-- The characters of flags. -/
def isFlag (c : Char) : Bool := ['#', '-', '+', ' ', '0'].contains c

private def has (k : Conversion) (flag : Char) : Bool := k.flags.contains flag

/-- A conversion with a width that was given as an argument. -/
def withWidth (k : Conversion) (n : Int) : Conversion :=
  { k with width := n.natAbs, flags := if n < 0 then '-' :: k.flags else k.flags }

private def padded (k : Conversion) (sign body : Text) (zeros : Bool) : Text :=
  let gap := k.width - (sign.length + body.length)
  if k.has '-' then sign ++ body ++ List.replicate gap ' '
  else if zeros then sign ++ List.replicate gap '0' ++ body
  else List.replicate gap ' ' ++ sign ++ body

/-- A text, of which the precision keeps the start. -/
def text (k : Conversion) (t : Text) : Text :=
  k.padded [] (match k.precision with
    | some n => t.take n
    | none => t) false

/-- One character. -/
def char (k : Conversion) (c : Char) : Text := k.padded [] [c] false

private def signOf (k : Conversion) (negative : Bool) : Text :=
  if negative then ['-'] else if k.has '+' then ['+'] else if k.has ' ' then [' '] else []

/-- Digits with the zeros that the precision asks for. -/
private def filled (k : Conversion) (digits : Text) : Text :=
  match k.precision with
  | none => digits
  | some n =>
    let digits := if n = 0 && digits = ['0'] then [] else digits
    List.replicate (n - digits.length) '0' ++ digits

/-- A signed integer in decimal. -/
def signed (k : Conversion) (n : Int) : Text :=
  k.padded (k.signOf (n < 0)) (k.filled (Text.ofNat n.natAbs)) (k.has '0' && k.precision.isNone)

/-- An integer without a sign in the base of its letter. -/
def unsigned (k : Conversion) (n : Nat) : Text :=
  let zeros := k.has '0' && k.precision.isNone
  match k.letter with
  | 'o' =>
    let digits := k.filled (Nat.toDigits 8 n)
    k.padded [] (if k.has '#' && digits.head? ≠ some '0' then '0' :: digits else digits) zeros
  | 'x' =>
    k.padded (if k.has '#' && n ≠ 0 then ['0', 'x'] else []) (k.filled (Nat.toDigits 16 n)) zeros
  | 'X' =>
    k.padded (if k.has '#' && n ≠ 0 then ['0', 'X'] else [])
      (k.filled ((Nat.toDigits 16 n).map Char.toUpper)) zeros
  | _ => k.padded [] (k.filled (Text.ofNat n)) zeros

/-- A real number of a format in the notation of its letter. -/
def real (k : Conversion) (f : BinaryFormat) (r : Real) : Text :=
  let upper := Text.isUpperLetter k.letter
  let named (t : Text) : Text := if upper then t.map Char.toUpper else t
  let places := k.precision.getD 6
  let sign := k.signOf r.isNegative
  match r with
  | .infinite _ => k.padded sign (named "inf") false
  | .undefined _ => k.padded sign (named "nan") false
  | .finite _ a b =>
    let mark : Text := if k.letter = 'a' then ['0', 'x'] else if k.letter = 'A' then ['0', 'X'] else []
    let body := match k.letter.toLower with
      | 'a' => Real.hexadecimal f upper (k.has '#') k.precision a b
      | 'e' => Real.scientific upper (k.has '#') places a b
      | 'g' => Real.general upper (k.has '#') places a b
      | _ => Real.positional places (k.has '#') a b
    k.padded (sign ++ mark) body (k.has '0')

end Conversion

end ConversationFlow.Shell
