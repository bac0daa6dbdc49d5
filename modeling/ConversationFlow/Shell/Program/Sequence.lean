import ConversationFlow.Shell.Conversion
import ConversationFlow.Shell.Options
import ConversationFlow.Shell.Program

/-!
# Sequences of numbers

The numbers from a first to a last one in equal steps are printed on lines of their own.
Whole numbers are counted exactly. Others are taken in a binary format with an error that
grows, so a number just past the last is printed too where it looks like the last one.
-/

namespace ConversationFlow.Shell.Sequence

/-- How many numbers are printed at most. -/
def most : Nat := 200000

private def options : OptionTable where
  letters := [('f', .always), ('s', .always), ('w', .never)]
  names := [("equal-width", .never, 'w'), ("format", .always, 'f'), ("separator", .always, 's')]
  endsAtOperand := true

/-- The options in front of the operands. A negative number is an operand. -/
private def read (arguments : List Text) : Except Text Parsed :=
  let isNegative (t : Text) : Bool := match t with
    | '-' :: c :: _ => c = '.' || Text.isDigit c
    | _ => false
  let rec go : Nat → List Text → Except Text Parsed
    | 0, rest => .ok { operands := rest }
    | fuel + 1, rest =>
      match rest with
      | [] => .ok {}
      | a :: _ =>
        if isNegative a || a.head? ≠ some '-' || a = ['-'] then .ok { operands := rest }
        else if a = ['-', '-'] then .ok { operands := rest.tail }
        else
          let takesNext := match options.read [a] with
            | .ok _ => false
            | .error _ => true
          let n := if takesNext then 2 else 1
          match options.read (rest.take n) with
          | .error e => .error e
          | .ok first =>
            match go fuel (rest.drop n) with
            | .ok p => .ok { p with options := first.options ++ p.options }
            | .error e => .error e
  go (arguments.length + 1) arguments

/-- An operand: its value, the length of its text, and its places behind the point, if they
can be told. -/
private structure Operand where
  value : Real
  width : Int
  places : Option Nat

private def one : Operand := ⟨.finite false 1 1, 1, some 0⟩

/-- The exponent that a text ends with. -/
private def exponentOf (t : Text) : Int :=
  match Numeral.read? false t with
  | some n => n.value
  | none => 0

/-- The width and the places that an operand asks for. -/
private def shape (t : Text) : Int × Nat :=
  let t := t.dropWhile fun c => isSpace c || c = '+'
  let point := Text.cutAt? '.' t
  let fraction := match point with
    | some (_, behind) => (behind.takeWhile fun c => c ≠ 'e' && c ≠ 'E').length
    | none => 0
  let mantissa := t.takeWhile fun c => c ≠ 'e' && c ≠ 'E'
  let pointWidth : Int := match point with
    | some (before, _) =>
      if fraction = 0 then -1
      else if before.getLast?.any Text.isDigit then 0 else 1
    | none => 0
  let width : Int := t.length + pointWidth
  if mantissa.length = t.length then (width, fraction)
  else
    let e := exponentOf (t.drop (mantissa.length + 1))
    let places : Int := if e < 0 then fraction - e else fraction - min (fraction : Int) e
    let width := width - (t.length - mantissa.length)
    if e < 0 then
      let extra : Int := if point.isNone || fraction = 0 then 1 else 0
      (width + extra - e, places.toNat)
    else
      let extra : Int := if point.isSome && places = 0 && fraction ≠ 0 then -1 else 0
      (width + extra + (e - min (fraction : Int) e), places.toNat)

private def operand (t : Text) : Except Text Operand :=
  let invalid : Except Text Operand :=
    .error ("invalid floating point argument: " ++ Quoted.plain t)
  match Real.read? t with
  | some (r, []) =>
    match r, r.rounded .extended with
    | .undefined _, _ => .error ("invalid 'not-a-number' argument: " ++ Quoted.plain t)
    | .finite .., .infinite _ => invalid
    | _, value =>
      let isHex := t.contains 'x' || t.contains 'X'
      let isFinite := match value with
        | .finite .. => true
        | _ => false
      if isHex || !isFinite then
        .ok ⟨value, 0, if t.contains '.' || t.contains 'p' then none else some 0⟩
      else
        let (width, places) := shape t
        .ok ⟨value, width, some places⟩
  | _ => invalid

/-- A number's form: a conversion between two texts. -/
private structure Form where
  front : Text := []
  conversion : Conversion
  behind : Text := []

private def Form.text (f : Form) (r : Real) : Text := f.front ++ f.conversion.real .extended r ++ f.behind

/-- A text up to the sign of a conversion, with doubled signs taken for one. -/
private def literal : Text → Text × Text
  | '%' :: '%' :: t => ('%' :: (literal t).1, (literal t).2)
  | '%' :: t => ([], '%' :: t)
  | c :: t => (c :: (literal t).1, (literal t).2)
  | [] => ([], [])

/-- The form that a format writes. -/
private def Form.read (t : Text) : Except Text Form :=
  let shown := ("format " : Text) ++ Quoted.plain t
  match literal t with
  | (front, '%' :: rest) =>
    let flags := rest.takeWhile fun c => Conversion.isFlag c || c = '\''
    let rest := rest.drop flags.length
    let width := rest.takeWhile Text.isDigit
    let rest := rest.drop width.length
    let (precision, rest) : Option Nat × Text := match rest with
      | '.' :: rest =>
        let digits := rest.takeWhile Text.isDigit
        (some (valueOf 10 digits), rest.drop digits.length)
      | rest => (none, rest)
    let rest := if rest.head? = some 'L' then rest.tail else rest
    match rest with
    | [] => .error (shown ++ (" ends in %" : Text))
    | letter :: rest =>
      if !"efgaEFGA".toList.contains letter then
        .error (shown ++ (" has unknown %" : Text) ++ [letter] ++ (" directive" : Text))
      else
        match literal rest with
        | (behind, []) =>
          .ok ⟨front, ⟨flags, valueOf 10 width, precision, letter⟩, behind⟩
        | _ => .error (shown ++ (" has too many % directives" : Text))
  | _ => .error (shown ++ (" has no % directive" : Text))

/-- The form where none is given. -/
private def Form.fitting (equalWidth : Bool) (first step last : Operand) : Form :=
  match first.places, step.places, last.places with
  | some a, some b, some c =>
    let places := max a b
    let conversion : Conversion := { precision := some places, letter := 'f' }
    if !equalWidth then { conversion := conversion }
    else
      let firstWidth := first.width + (places - a : Int) + (if a = 0 && 0 < places then 1 else 0)
      let lastWidth := last.width + ((places : Int) - c)
        + (if 0 < c && places = 0 then -1 else if c = 0 && 0 < places then 1 else 0)
      { conversion := { conversion with flags := ['0'], width := (max firstWidth lastWidth).toNat } }
  | _, _, _ => { conversion := { letter := 'g' } }

/-- Whether a number is beyond the last one. -/
private def passed (step last x : Real) : Bool := if step.isNegative then x.below last else last.below x

/-- The numbers behind the one printed last. -/
private def further (form : Form) (first step last : Real) : Nat → Nat → Text → List Text
  | 0, _, _ => []
  | fuel + 1, i, before =>
    let x := (first.plus ((step.times i).rounded .extended)).rounded .extended
    let text := form.text x
    if passed step last x then
      let number := (text.drop form.front.length).take
        (text.length - form.front.length - form.behind.length)
      let looksLast := match Real.read? number with
        | some (r, []) => (r.rounded .extended).equals last
        | _ => false
      if looksLast && text ≠ before then [text] else []
    else text :: further form first step last fuel (i + 1) text

/-- The whole numbers from `n` on. -/
private def count (last : Option Nat) (step : Nat) : Nat → Nat → List Text
  | 0, _ => []
  | fuel + 1, n =>
    if last.any (· < n) then [] else Text.ofNat n :: count last step fuel (n + step)

/-- The longest step by which whole numbers are counted exactly. -/
private def longestStep : Nat := 200

/-- The numbers, each in its form. -/
private def numbers (form : Option Form) (equalWidth : Bool) (separator : Text)
    (operands : List Text) : Except Text (List Text) := do
  let (a, s, z) : Option Text × Option Text × Text := match operands with
    | [] => (none, none, [])
    | [z] => (none, none, z)
    | [a, z] => (some a, none, z)
    | a :: s :: z :: _ => (some a, some s, z)
  let simple := form.isNone && !equalWidth && separator.length = 1
  let plain : Option (Nat × Nat × Nat) := do
    let first ← Text.toNat? (a.getD ['1'])
    let step ← Text.toNat? (s.getD ['1'])
    let last ← Text.toNat? z
    if simple && 0 < step && step ≤ longestStep then some (first, step, last) else none
  match plain with
  | some (first, step, last) => return count (some last) step most first
  | none =>
    let first ← match a with
      | some a => operand a
      | none => pure one
    let step ← match s with
      | some s => operand s
      | none => pure one
    if let some s := s then
      if step.value.isZero then throw ("invalid Zero increment value: " ++ Quoted.plain s)
    let last ← operand z
    let whole := [first, step, last].all fun o => o.places = some 0
    let counted : Option (Nat × Nat × Option Nat) := do
      let x ← first.value.whole?
      let d ← step.value.whole?
      let y ← match last.value with
        | .infinite false => some none
        | r => r.whole?.map some
      if whole && simple && 0 < d && d ≤ longestStep then some (x, d, y) else none
    if let some (x, d, y) := counted then return count y d most x
    let form := form.getD (.fitting equalWidth first step last)
    if passed step.value last.value first.value then return []
    let text := form.text first.value
    return text :: further form first.value step.value last.value most 1 text

/-- Prints the numbers that its operands bound. -/
def run (c : Call) : Effect :=
  match read c.arguments with
  | .error message => .misuse 1 c.name message
  | .ok parsed =>
    match parsed.operands with
    | [] => .misuse 1 c.name "missing operand"
    | _ :: _ :: _ :: extra :: _ => .misuse 1 c.name ("extra operand " ++ Quoted.plain extra)
    | operands =>
      let equalWidth := parsed.has 'w'
      match (parsed.value? 'f').map Form.read with
      | some (.error message) => ({} : Effect).complain 1 c.name message
      | format =>
        let form := format.bind Except.toOption
        if form.isSome && equalWidth then
          .misuse 1 c.name "format string may not be specified when printing equal width strings"
        else
          let separator := (parsed.value? 's').getD ['\n']
          match numbers form equalWidth separator operands with
          | .error message => .misuse 1 c.name message
          | .ok [] => {}
          | .ok texts => ({} : Effect).print (Text.join separator texts ++ ['\n'])

end ConversationFlow.Shell.Sequence
