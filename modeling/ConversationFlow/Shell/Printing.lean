import ConversationFlow.Shell.Conversion
import ConversationFlow.Shell.Program

/-!
# Printing arguments

The commands that print their arguments exist twice, in the shell and as programs, and
differ in their escapes and complaints. A format is used again as long as it takes up
arguments.
-/

namespace ConversationFlow.Shell

/-- What printing came to: the output and the complaints, in order. -/
structure Printed where
  parts : List (Stream × Text) := []
  status : Nat := 0

namespace Printed

/-- Printing that fails with one complaint. -/
def failure (status : Nat) (t : Text) : Printed := ⟨[(.error, t)], status⟩

/-- All that goes to a stream, part by part. -/
def on (p : Printed) (s : Stream) : List Text :=
  p.parts.filterMap fun part => if part.1 = s then some part.2 else none

end Printed

namespace Printing

private def isOctal (c : Char) : Bool := '0' ≤ c && c ≤ '7'

private def isHex (c : Char) : Bool := (digitValue? c).any (· < 16)

/-- The byte of at most `width` digits of a base, and the text behind them. -/
private def byteOf (base width : Nat) (t : Text) : Char × Text :=
  let digits := digitsOf base (t.take width)
  (Char.ofNat (valueOf base digits % 256), t.drop digits.length)

/-- The byte that a letter behind a backslash stands for. -/
private def lettered? (c : Char) : Option Char :=
  (([('a', 7), ('b', 8), ('f', 12), ('n', 10), ('r', 13), ('t', 9), ('v', 11), ('\\', 92)] :
    List (Char × Nat)).find? fun e => e.1 = c).map fun e => Char.ofNat e.2

/-! ## In the shell -/

/-- What stands behind a backslash: the byte that both give, and the text behind. -/
private def escape (t : Text) : Char × Text :=
  match t with
  | [] => ('\\', [])
  | c :: rest =>
    if isOctal c then byteOf 8 3 t
    else if c = 'e' then (Char.ofNat 27, rest)
    else
      match lettered? c with
      | some b => (b, rest)
      | none => ('\\', t)

/-- A text with its escapes carried out, and whether it asks to print no more. -/
private def escaped : Nat → Text → Text × Bool
  | 0, _ | _, [] => ([], false)
  | fuel + 1, '\\' :: t =>
    match t with
    | 'c' :: _ => ([], true)
    | t =>
      let (b, rest) := match t with
        | '0' :: c :: rest => if isOctal c then escape (c :: rest) else escape t
        | t => escape t
      let (out, stops) := escaped fuel rest
      (b :: out, stops)
  | fuel + 1, c :: t =>
    let (out, stops) := escaped fuel t
    (c :: out, stops)

/-- The arguments with their escapes carried out, and what ends the line. -/
private def echoed (ending : Text) : List Text → Text
  | [] => ending
  | [a] =>
    let (out, stops) := escaped (a.length + 1) a
    if stops then out else out ++ ending
  | a :: rest =>
    let (out, stops) := escaped (a.length + 1) a
    if stops then out else out ++ ' ' :: echoed ending rest

/-- Prints arguments with their escapes carried out. -/
def echo : List Text → Text
  | ['-', 'n'] :: arguments => echoed [] arguments
  | arguments => echoed ['\n'] arguments

/-- The state of a formatted printing, its parts in reverse. -/
private structure State where
  parts : List (Stream × Text) := []
  arguments : List Text
  status : Nat := 0

/-- Formatted printing. It may stop, with a complaint or without. -/
private abbrev Format := ExceptT (Option Text) (StateM State)

private def put (t : Text) : Format Unit :=
  modify fun s => { s with parts := (.output, t) :: s.parts }

private def argument? : Format (Option Text) := do
  let s ← get
  set { s with arguments := s.arguments.tail }
  return s.arguments.head?

private def complain (t : Text) : Format Unit :=
  modify fun s => { s with parts := (.error, t) :: s.parts, status := 1 }

private def warn (t : Text) : Format Unit :=
  modify fun s => { s with parts := (.error, "warning: " ++ t) :: s.parts }

/-- How arguments are read as numbers. -/
private structure NumberRules where
  format : BinaryFormat
  /-- What is said of an argument, with how it is quoted. -/
  quoted : Text → Text
  notNumber : Text
  notWhole : Text
  /-- What is said of characters behind the one whose number is asked for. -/
  leftOver : Option Text
  moreFlags : List Char := []

private def outOfRange : Text := "Numerical result out of range"

/-- The number of the character behind a quotation mark in front of an argument. -/
private def characterNumber? (rules : NumberRules) (t : Text) : Format (Option Nat) := do
  match t with
  | q :: rest =>
    if q ≠ '\'' && q ≠ '"' then return none
    match rest, rules.leftOver with
    | [], some _ => return none
    | c :: behind, some message =>
      if !behind.isEmpty then warn (behind ++ message)
      return some c.toNat
    | rest, none => return some ((rest.head?.map Char.toNat).getD 0)
  | [] => return none

private def judge (rules : NumberRules) (t rest : Text) (inRange : Bool) : Format Unit := do
  if !inRange then complain (rules.quoted t ++ ": " ++ outOfRange)
  else if !rest.isEmpty then
    complain (rules.quoted t ++ ": " ++ (if rest = t then rules.notNumber else rules.notWhole))

private def integer (rules : NumberRules) (isSigned : Bool) : Format Int := do
  match ← argument? with
  | none => return 0
  | some t =>
    match ← characterNumber? rules t with
    | some n => return n
    | none =>
      match Numeral.read? true t with
      | none =>
        judge rules t t true
        return 0
      | some n =>
        let top : Int := (wordSize integerBits : Int) - 1
        let inRange := if isSigned then !n.overflows else (n.magnitude : Int) ≤ top
        judge rules t n.rest inRange
        return if isSigned then n.value
          else if inRange then n.exact % (top + 1)
          else top

private def real (rules : NumberRules) : Format Real := do
  match ← argument? with
  | none => return .finite false 0 1
  | some t =>
    match ← characterNumber? rules t with
    | some n => return .finite false n 1
    | none =>
      match Real.read? t with
      | none =>
        judge rules t t true
        return .finite false 0 1
      | some (r, rest) =>
        let rounded := r.rounded rules.format
        judge rules t rest (r.fits rules.format)
        return rounded

/-- A width or a precision that is given as an argument. -/
private def measure (rules : NumberRules) : Format Int := integer rules true

/-- The flags, width and precision of a conversion, and the text behind them. -/
private def conversion (rules : NumberRules) (t : Text) : Format (Conversion × Text) := do
  let flags := t.takeWhile fun c => Conversion.isFlag c || rules.moreFlags.contains c
  let t := t.drop flags.length
  let k : Conversion := { flags, letter := ' ' }
  let (k, t) ← match t with
    | '*' :: t => pure (k.withWidth (← measure rules), t)
    | t =>
      let digits := t.takeWhile Text.isDigit
      pure ({ k with width := valueOf 10 digits }, t.drop digits.length)
  match t with
  | '.' :: '*' :: t =>
    let n ← measure rules
    return ({ k with precision := if n < 0 then none else some n.toNat }, t)
  | '.' :: t =>
    let digits := t.takeWhile Text.isDigit
    return ({ k with precision := some (valueOf 10 digits) }, t.drop digits.length)
  | t => return (k, t)

/-- Converts an argument by the letter of a conversion, and tells whether there is such a
letter. -/
private def convert (rules : NumberRules) (k : Conversion) : Format Bool := do
  if k.letter = 's' then
    put (k.text ((← argument?).getD []))
    return true
  else if k.letter = 'c' then
    put (k.char (((← argument?).bind List.head?).getD (Char.ofNat 0)))
    return true
  else if k.letter = 'd' || k.letter = 'i' then
    put (k.signed (← integer rules true))
    return true
  else if ['o', 'u', 'x', 'X'].contains k.letter then
    put (k.unsigned (← integer rules false).toNat)
    return true
  else if ['a', 'A', 'e', 'E', 'f', 'F', 'g', 'G'].contains k.letter then
    put (k.real rules.format (← real rules))
    return true
  else return false

private def shellRules : NumberRules where
  format := .double
  quoted t := t
  notNumber := "expected numeric value"
  notWhole := "not completely converted"
  leftOver := none

/-- One pass over a format of the shell. -/
private def shellPass : Nat → Text → Format Unit
  | 0, _ | _, [] => return ()
  | fuel + 1, '\\' :: t => do
    let (b, rest) := escape t
    put [b]
    shellPass fuel rest
  | fuel + 1, '%' :: '%' :: t => do
    put ['%']
    shellPass fuel t
  | fuel + 1, '%' :: t => do
    let (k, rest) ← conversion shellRules t
    match rest with
    | [] => throw (some ("missing format character" : Text))
    | 'b' :: rest =>
      let a := (← argument?).getD []
      let (out, stops) := escaped (a.length + 1) a
      put (k.text out)
      if stops then throw none
      shellPass fuel rest
    | c :: rest =>
      if ← convert shellRules { k with letter := c } then shellPass fuel rest
      else
        throw (some ('%' :: t.take (t.length - rest.length) ++ ": invalid directive"))
  | fuel + 1, c :: t => do
    put [c]
    shellPass fuel t

/-- Passes over a format as long as they take up arguments. -/
private def passes (pass : Format Unit) : Nat → Format Unit
  | 0 => return ()
  | fuel + 1 => do
    let before := (← get).arguments.length
    pass
    let after := (← get).arguments.length
    if 0 < after && after < before then passes pass fuel

/-- What a formatted printing came to. A complaint that stops it has a status of its own. -/
private def finish (failure : Nat) (arguments : List Text) (format : Format Unit) : Printed :=
  let (result, s) := (format.run { arguments := arguments } : Id _)
  match result with
  | .error (some t) => ⟨((.error, t) :: s.parts).reverse, failure⟩
  | _ => ⟨s.parts.reverse, s.status⟩

/-- The shell's formatted printing. -/
def printf (arguments : List Text) : Printed :=
  let print : List Text → Printed
    | [] => .failure 2 "usage: printf format [arg ...]"
    | format :: rest =>
      finish 2 rest (passes (shellPass (format.length + 1) format) (rest.length + 1))
  match arguments with
  | ['-', '-'] :: rest => print rest
  | ('-' :: c :: _) :: _ => .failure 2 (("Illegal option -" : Text) ++ [c])
  | arguments => print arguments

/-! ## As programs -/

/-- A character by its number. One that is not a single byte is shown by its digits. -/
private def unicode (n : Nat) : Text :=
  let digits := (Nat.toDigits 16 n).map Char.toUpper
  let filled (width : Nat) : Text := List.replicate (width - digits.length) '0' ++ digits
  if n < 128 then [Char.ofNat n]
  else if n < 65536 then '\\' :: 'u' :: filled 4
  else '\\' :: 'U' :: filled 8

/-- What stands behind a backslash: what both give, and the text behind; `none` where no more is
to be printed. In a text of its own an octal number has a zero in front. -/
private def programEscape (zero : Bool) (t : Text) : Except (Option Text) (Text × Text) :=
  match t with
  | [] => .ok (['\\'], [])
  | c :: rest =>
    if c = 'x' then
      if rest.head?.any isHex then .ok ([(byteOf 16 2 rest).1], (byteOf 16 2 rest).2)
      else .error (some "missing hexadecimal number in escape")
    else if isOctal c then
      let (b, rest) := byteOf 8 3 (if zero && c = '0' then rest else t)
      .ok ([b], rest)
    else if c = 'c' then .error none
    else if c = 'e' then .ok ([Char.ofNat 27], rest)
    else if c = '"' then .ok (['"'], rest)
    else if c = 'u' || c = 'U' then
      let width := if c = 'u' then 4 else 8
      let digits := digitsOf 16 (rest.take width)
      let n := valueOf 16 digits
      if digits.length = width then
        if 55296 ≤ n && n < 57344 then
          .error (some ("invalid universal character name \\" ++ c :: digits.map Char.toLower))
        else .ok (unicode n, rest.drop width)
      else .error (some "missing hexadecimal number in escape")
    else
      match lettered? c with
      | some b => .ok ([b], rest)
      | none => .ok (['\\', c], rest)

private def putEscaped : Nat → Text → Format Unit
  | 0, _ | _, [] => return ()
  | fuel + 1, '\\' :: t => do
    let (out, rest) ← (programEscape true t : Except _ _)
    put out
    putEscaped fuel rest
  | fuel + 1, c :: t => do
    put [c]
    putEscaped fuel t

private def programRules : NumberRules where
  format := .extended
  quoted := Quoted.plain
  notNumber := "expected a numeric value"
  notWhole := "value not completely converted"
  leftOver := some ": character(s) following character constant have been ignored"
  moreFlags := ['\'', 'I']

/-- Whether flags and a precision go with the letter of a conversion. -/
private def fits (t : Text) (k : Conversion) : Bool :=
  let refused (flag : Char) : List Char :=
    match flag with
    | '\'' | 'I' => ['a', 'A', 'c', 'e', 'E', 'o', 's', 'x', 'X']
    | '#' => ['c', 'd', 'i', 's', 'u']
    | '0' => ['c', 's']
    | _ => []
  !(k.flags.any fun flag => (refused flag).contains k.letter) && !(k.letter = 'c' && t.contains '.')

/-- One pass over a format of the program. -/
private def programPass : Nat → Text → Format Unit
  | 0, _ | _, [] => return ()
  | fuel + 1, '\\' :: t => do
    let (out, rest) ← (programEscape false t : Except _ _)
    put out
    programPass fuel rest
  | fuel + 1, '%' :: '%' :: t => do
    put ['%']
    programPass fuel t
  | fuel + 1, '%' :: 'b' :: t => do
    if let some a ← argument? then putEscaped (a.length + 1) a
    programPass fuel t
  | fuel + 1, '%' :: 'q' :: t => do
    if let some a ← argument? then put (Quoted.needed false a)
    programPass fuel t
  | fuel + 1, '%' :: t => do
    let (k, rest) ← conversion programRules t
    let rest := rest.dropWhile ['l', 'L', 'h', 'j', 't', 'z'].contains
    match rest with
    | [] => throw (some ('%' :: t ++ ": invalid conversion specification"))
    | c :: rest =>
      let k := { k with letter := c }
      let written := t.take (t.length - rest.length)
      let good ← if fits written k then convert programRules k else pure false
      if good then programPass fuel rest
      else throw (some ('%' :: written ++ ": invalid conversion specification"))
  | fuel + 1, c :: t => do
    put [c]
    programPass fuel t

/-- The program's formatted printing. -/
def printfProgram (name : Text) (arguments : List Text) : Printed :=
  let arguments := match arguments with
    | ['-', '-'] :: rest => rest
    | arguments => arguments
  match arguments with
  | [] =>
    .failure 1 (("missing operand\nTry '" : Text) ++ name ++ (" --help' for more information." : Text))
  | format :: arguments =>
    finish 1 arguments do
      passes (programPass (format.length + 1) format) (arguments.length + 1)
      match (← get).arguments with
      | a :: _ =>
        warn ("ignoring excess arguments, starting with " ++ Quoted.plain a)
      | [] => return ()

/-- An argument with its escapes carried out as the program does, and whether it asks to print
no more. -/
private def echoEscaped : Nat → Text → Text × Bool
  | 0, _ | _, [] => ([], false)
  | fuel + 1, '\\' :: c :: t =>
    let go (out rest : Text) : Text × Bool :=
      let (more, stops) := echoEscaped fuel rest
      (out ++ more, stops)
    if c = 'c' then ([], true)
    else if c = 'e' then go [Char.ofNat 27] t
    else if c = 'x' && t.head?.any isHex then go [(byteOf 16 2 t).1] (byteOf 16 2 t).2
    else if c = '0' then go [(byteOf 8 3 t).1] (byteOf 8 3 t).2
    else if isOctal c then go [(byteOf 8 3 (c :: t)).1] (byteOf 8 3 (c :: t)).2
    else
      match lettered? c with
      | some b => go [b] t
      | none => go ['\\', c] t
  | fuel + 1, c :: t =>
    let (more, stops) := echoEscaped fuel t
    (c :: more, stops)

/-- Prints arguments as the program does, which carries out escapes only where asked to. -/
def echoProgram (arguments : List Text) : Text :=
  let isFlag (t : Text) : Bool :=
    match t with
    | '-' :: c :: r => (c :: r).all ['n', 'e', 'E'].contains
    | _ => false
  let flags := arguments.takeWhile isFlag
  let letters := flags.flatten
  let escapes := (letters.reverse.find? fun c => c = 'e' || c = 'E') = some 'e'
  let line := Text.join [' '] (arguments.drop flags.length)
  let ending : Text := if letters.contains 'n' then [] else ['\n']
  if escapes then
    let (out, stops) := echoEscaped (line.length + 1) line
    if stops then out else out ++ ending
  else line ++ ending

end Printing

end ConversationFlow.Shell
