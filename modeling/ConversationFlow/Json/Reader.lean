import ConversationFlow.Json.Basic
import ConversationFlow.Value.Basic

/-!
# Reading JSON

The one value that a text writes. Nesting beyond 127 levels, numbers beyond the
range of binary floating point, halves of characters and anything after the value are refused. A
value that nobody asks for is passed over: its form has to be right, but it may be nested, out of
range or halved in any way.
-/

namespace ConversationFlow.Json

def isGap (c : Char) : Bool := c = ' ' || c = '\n' || c = '\t' || c = '\r'

def skipGap (t : Text) : Text := t.dropWhile isGap

def hexDigit? (c : Char) : Option Nat :=
  if Text.isDigit c then some (c.toNat - '0'.toNat)
  else if 'a' ≤ c && c ≤ 'f' then some (c.toNat - 'a'.toNat + 10)
  else if 'A' ≤ c && c ≤ 'F' then some (c.toNat - 'A'.toNat + 10)
  else none

/-- Four hexadecimal digits. -/
def unit? (a b c d : Char) : Option Nat := do
  let a ← hexDigit? a
  let b ← hexDigit? b
  let c ← hexDigit? c
  let d ← hexDigit? d
  pure (a * 4096 + b * 256 + c * 16 + d)

/-- The character of an escape that has one letter. -/
def shortEscape? (c : Char) : Option Char :=
  if c = '"' || c = '\\' || c = '/' then some c
  else if c = 'b' then some (Char.ofNat 8)
  else if c = 'f' then some (Char.ofNat 12)
  else if c = 'n' then some '\n'
  else if c = 'r' then some '\r'
  else if c = 't' then some '\t'
  else none

/-- What stands in a string up to the closing quote, and the text after it: characters, and escapes
that give a unit of sixteen bits. -/
def pieces? : Text → Option (List (Char ⊕ Nat) × Text)
  | '"' :: rest => some ([], rest)
  | '\\' :: 'u' :: a :: b :: c :: d :: rest =>
    match unit? a b c d with
    | some n => (pieces? rest).map fun (ps, r) => (.inr n :: ps, r)
    | none => none
  | '\\' :: c :: rest =>
    match shortEscape? c with
    | some e => (pieces? rest).map fun (ps, r) => (.inl e :: ps, r)
    | none => none
  | c :: rest =>
    if c.toNat < 0x20 then none else (pieces? rest).map fun (ps, r) => (.inl c :: ps, r)
  | [] => none

/-- The characters that pieces make. A character beyond the first plane is written as a high and a
low surrogate; neither may stand alone. -/
def joined? : List (Char ⊕ Nat) → Option Text
  | [] => some []
  | .inl c :: ps => (joined? ps).map (c :: ·)
  | .inr n :: ps =>
    if 0xD800 ≤ n ∧ n < 0xDC00 then
      match ps with
      | .inr m :: ps =>
        if 0xDC00 ≤ m ∧ m < 0xE000 then
          (joined? ps).map (Char.ofNat (0x10000 + (n - 0xD800) * 0x400 + (m - 0xDC00)) :: ·)
        else none
      | _ => none
    else if 0xDC00 ≤ n ∧ n < 0xE000 then none
    else (joined? ps).map (Char.ofNat n :: ·)

/-- The characters up to the closing quote, and the text after it. In a string that is passed over
the units may be anything. -/
def string? (isPassed : Bool) (t : Text) : Option (Text × Text) :=
  match pieces? t with
  | none => none
  | some (ps, rest) =>
    if isPassed then some (ps.filterMap Sum.getLeft?, rest) else (joined? ps).map (·, rest)

/-- A number with as many further digits as still fit 64 bits, and how many are left over. -/
private def significand (lead : Nat) (digits : Text) : Nat × Nat :=
  digits.foldl (fun (n, dropped) c =>
    let next := 10 * n + (c.toNat - '0'.toNat)
    if dropped = 0 && next < wordSize 64 then (next, 0) else (n, dropped + 1)) (lead, 0)

/-- A significand scaled by a power of ten, one floating-point operation for each 308 places;
`none` if it leaves the range. -/
private def scaled? (fuel : Nat) (x : Float) (exponent : Int) : Option Float :=
  match fuel with
  | 0 => some x
  | fuel + 1 =>
    if exponent.natAbs ≤ 308 then
      let power := Float.ofScientific 1 false exponent.natAbs
      if 0 ≤ exponent then
        if (x * power).isInf then none else some (x * power)
      else some (x / power)
    else if x == 0.0 then some x
    else if 0 ≤ exponent then none
    else scaled? fuel (x / Float.ofScientific 1 false 308) (exponent + 308)

/-- The number that `whole`, `fraction` and `exponent` write. -/
def real? (negative : Bool) (whole fraction : Text) (exponent : Int) : Option Json :=
  let (lead, overflow) := significand 0 whole
  let (n, dropped) := significand lead fraction
  let places : Int := exponent + overflow - (fraction.length - dropped : Nat)
  (scaled? (places.natAbs / 308 + 2) (Float.ofNat n) places).map fun x =>
    .real (if negative then -x else x)

/-- An exponent, zero if the text does not begin with one. -/
def exponent? : Text → Option (Option Int × Text)
  | c :: rest =>
    if c = 'e' || c = 'E' then
      let (negative, rest) : Bool × Text :=
        match rest with
        | '-' :: r => (true, r)
        | '+' :: r => (false, r)
        | r => (false, r)
      match Text.toNat? (rest.takeWhile Text.isDigit) with
      | some n =>
        some (some (if negative then -(n : Int) else n), rest.dropWhile Text.isDigit)
      | none => none
    else some (none, c :: rest)
  | [] => some (none, [])

/-- A number without its sign. -/
def number? (isPassed negative : Bool) (t : Text) : Option (Json × Text) := do
  let whole := t.takeWhile Text.isDigit
  let rest := t.dropWhile Text.isDigit
  let value ← Text.toNat? whole
  if whole.length > 1 && whole.head? == some '0' then none else
  let (fraction, rest) ← (match rest with
    | '.' :: r =>
      let digits := r.takeWhile Text.isDigit
      if digits.isEmpty then none else some (some digits, r.dropWhile Text.isDigit)
    | r => some (none, r) : Option (Option Text × Text))
  let (exponent, rest) ← exponent? rest
  if isPassed then some (.null, rest)
  else if fraction.isNone && exponent.isNone then
    if negative && value = 0 then some (.real (-0.0), rest)
    else if !negative && value < wordSize 64 then some (.int value, rest)
    else if negative && value ≤ wordSize 63 then some (.int (-value), rest)
    else (real? negative whole [] 0).map (·, rest)
  else (real? negative whole (fraction.getD []) (exponent.getD 0)).map (·, rest)

/-- A name that stands for a value of its own. -/
def word? (t : Text) : Option (Json × Text) :=
  match Text.after? "null" t, Text.after? "true" t, Text.after? "false" t with
  | some r, _, _ => some (.null, r)
  | _, some r, _ => some (.bool true, r)
  | _, _, some r => some (.bool false, r)
  | _, _, _ => none

mutual

/-- A value at the front of a text. `depth` levels may still be opened, any number in a value that
is passed over; `fuel` bounds the calls. -/
def value? (isPassed : Bool) (fuel depth : Nat) (t : Text) : Option (Json × Text) :=
  match fuel with
  | 0 => none
  | fuel + 1 =>
    match skipGap t with
    | '"' :: rest => (string? isPassed rest).map fun (s, r) => (.str s, r)
    | '[' :: rest =>
      if depth = 0 && !isPassed then none
      else
        match skipGap rest with
        | ']' :: rest => some (.arr [], rest)
        | rest => (elements? isPassed fuel (depth - 1) rest).map fun (items, r) => (.arr items, r)
    | '{' :: rest =>
      if depth = 0 && !isPassed then none
      else
        match skipGap rest with
        | '}' :: rest => some (.obj [], rest)
        | rest =>
          (members? isPassed (fun _ => isPassed) fuel (depth - 1) rest).map fun (fields, r) =>
            (.obj fields, r)
    | '-' :: rest => number? isPassed true rest
    | c :: rest => if Text.isDigit c then number? isPassed false (c :: rest) else word? (c :: rest)
    | [] => none

/-- The elements up to the closing bracket. -/
def elements? (isPassed : Bool) (fuel depth : Nat) (t : Text) :
    Option (List Json × Text) :=
  match fuel with
  | 0 => none
  | fuel + 1 =>
    match value? isPassed fuel depth t with
    | none => none
    | some (v, rest) =>
      match skipGap rest with
      | ',' :: rest => (elements? isPassed fuel depth rest).map fun (vs, r) => (v :: vs, r)
      | ']' :: rest => some ([v], rest)
      | _ => none

/-- The members up to the closing brace. `passes` says of which names the value is passed over. -/
def members? (isPassed : Bool) (passes : Text → Bool) (fuel depth : Nat) (t : Text) :
    Option (List (Text × Json) × Text) :=
  match fuel with
  | 0 => none
  | fuel + 1 =>
    match skipGap t with
    | '"' :: rest =>
      match string? isPassed rest with
      | none => none
      | some (name, rest) =>
        match skipGap rest with
        | ':' :: rest =>
          match value? (passes name) fuel depth rest with
          | none => none
          | some (v, rest) =>
            match skipGap rest with
            | ',' :: rest =>
              (members? isPassed passes fuel depth rest).map fun (fs, r) => ((name, v) :: fs, r)
            | '}' :: rest => some ([(name, v)], rest)
            | _ => none
        | _ => none
    | _ => none

end

/-- The value that a whole text writes. -/
def read? (t : Text) : Option Json :=
  match value? false (2 * t.length + 2) 127 t with
  | some (v, rest) => if (skipGap rest).isEmpty then some v else none
  | none => none

/-- The value that a whole text writes, where of the fields of an object only some are of
interest. -/
def readFields? (names : List String) (t : Text) : Option Json :=
  match skipGap t with
  | '{' :: rest =>
    match skipGap rest with
    | '}' :: _ => read? t
    | rest => do
      let passes (name : Text) : Bool := !(names.any fun n => n.toList = name)
      let (fields, rest) ← members? false passes (2 * t.length + 2) 126 rest
      if (skipGap rest).isEmpty then some (.obj fields) else none
  | _ => read? t

end ConversationFlow.Json
