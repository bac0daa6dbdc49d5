import ConversationFlow.Shell.Syntax
import ConversationFlow.Text.Dictionary
import ConversationFlow.Value.Basic

/-!
# Arithmetic

An expression is read and evaluated at once, operator by operator, with the usual ranks.
The operand that a condition excludes is read but has no effect.
-/

/-! ## Integers

Integers have 64 bits. A literal that does not fit stands for the nearest one that does,
and arithmetic wraps around.
-/

namespace ConversationFlow.Shell

/-- The integers have so many bits. -/
def integerBits : Nat := 64

def maxInteger : Int := (wordSize (integerBits - 1) : Int) - 1

def minInteger : Int := -(wordSize (integerBits - 1) : Int)

/-- The integer that arithmetic yields in place of `n`. -/
def wrapped (n : Int) : Int := Int.bmod n (wordSize integerBits)

/-- The blanks in front of numbers. -/
def isSpace (c : Char) : Bool := c = ' ' || ('\t' ≤ c && c ≤ '\r')

def digitValue? (c : Char) : Option Nat :=
  if Text.isDigit c then some (c.toNat - '0'.toNat)
  else if Text.isLowerLetter c then some (c.toNat - 'a'.toNat + 10)
  else if Text.isUpperLetter c then some (c.toNat - 'A'.toNat + 10)
  else none

/-- The digits of a base in front of a text. -/
def digitsOf (base : Nat) (t : Text) : Text :=
  t.takeWhile fun c => (digitValue? c).any (· < base)

def valueOf (base : Nat) (digits : Text) : Nat :=
  digits.foldl (fun n c => n * base + (digitValue? c).getD 0) 0

/-- A number in front of a text: its sign, its digits' value, and the text behind. -/
structure Numeral where
  negative : Bool
  magnitude : Nat
  rest : Text

namespace Numeral

/-- The numeral that a text begins with, with the base that its prefix tells, or base ten. -/
def read? (anyBase : Bool) (t : Text) : Option Numeral :=
  let t := t.dropWhile isSpace
  let (negative, t) := match t with
    | '-' :: t => (true, t)
    | '+' :: t => (false, t)
    | t => (false, t)
  let take (base : Nat) (t : Text) : Option Numeral :=
    let digits := digitsOf base t
    if digits.isEmpty then none else some ⟨negative, valueOf base digits, t.drop digits.length⟩
  if !anyBase then take 10 t
  else
    match t with
    | '0' :: x :: t =>
      if x = 'x' || x = 'X' then
        match take 16 t with
        | some n => some n
        | none => some ⟨negative, 0, x :: t⟩
      else take 8 ('0' :: x :: t)
    | t => take (if t.head? = some '0' then 8 else 10) t

def exact (n : Numeral) : Int := if n.negative then -(n.magnitude : Int) else n.magnitude

/-- Whether a numeral is beyond the integers. -/
def overflows (n : Numeral) : Bool := n.exact < minInteger || maxInteger < n.exact

/-- The nearest integer. -/
def value (n : Numeral) : Int := max minInteger (min maxInteger n.exact)

end Numeral

/-- The integer that a whole text writes, with blanks around it. -/
def integer? (anyBase : Bool) (t : Text) : Option Int :=
  match Numeral.read? anyBase t with
  | some n =>
    if n.overflows || !(n.rest.dropWhile isSpace).isEmpty then none else some n.value
  | none => if anyBase && (t.dropWhile isSpace).isEmpty then some 0 else none

end ConversationFlow.Shell

/-! ## Expressions -/

namespace ConversationFlow.Shell.Arithmetic

/-- An operator between two operands. -/
inductive Binary where
  | mul | div | rem | add | sub | shiftLeft | shiftRight
  | less | lessEqual | greater | greaterEqual | equal | unequal
  | bitAnd | bitXor | bitOr
deriving DecidableEq

/-- The rank of an operator: one of lower rank binds tighter. -/
def Binary.rank : Binary → Nat
  | .mul | .div | .rem => 0
  | .add | .sub => 1
  | .shiftLeft | .shiftRight => 2
  | .less | .lessEqual | .greater | .greaterEqual => 3
  | .equal | .unequal => 4
  | .bitAnd => 5
  | .bitXor => 6
  | .bitOr => 7

/-- An element of an expression. -/
inductive Token where
  | number (n : Int)
  | variable (name : Text)
  | binary (op : Binary)
  | assign (op : Option Binary)
  | both
  | either
  | question
  | colon
  | not
  | complement
  | opening
  | closing
  | ending
  | unknown
deriving DecidableEq

/-- Why an expression has no value. -/
inductive Fault where
  | missingOperand
  | trailing
  | missingClosing
  | missingColon
  | divisionByZero
  | notNumber (value : Text)
  | notAssigned (name : Text)
deriving DecidableEq

/-- The message of a fault in an expression that was written so. -/
def Fault.message (written : Text) : Fault → Text
  | .notNumber value => "Illegal number: " ++ value
  | .notAssigned name => name ++ ": is read only"
  | fault =>
    let what : Text := match fault with
      | .missingOperand => "expecting primary"
      | .trailing => "expecting EOF"
      | .missingClosing => "expecting ')'"
      | .missingColon => "expecting ':'"
      | _ => "division by zero"
    "arithmetic expression: " ++ what ++ ": \"" ++ written ++ "\""

/-- The operators of signs, longer signs first. -/
private def signs : List (String × Token) := [
  ("<<=", .assign (some .shiftLeft)), (">>=", .assign (some .shiftRight)),
  ("<<", .binary .shiftLeft), (">>", .binary .shiftRight), ("<=", .binary .lessEqual),
  (">=", .binary .greaterEqual), ("==", .binary .equal), ("!=", .binary .unequal),
  ("&&", .both), ("||", .either), ("*=", .assign (some .mul)), ("/=", .assign (some .div)),
  ("%=", .assign (some .rem)), ("+=", .assign (some .add)), ("-=", .assign (some .sub)),
  ("&=", .assign (some .bitAnd)), ("^=", .assign (some .bitXor)), ("|=", .assign (some .bitOr)),
  ("<", .binary .less), (">", .binary .greater), ("=", .assign none), ("*", .binary .mul),
  ("/", .binary .div), ("%", .binary .rem), ("+", .binary .add), ("-", .binary .sub),
  ("&", .binary .bitAnd), ("^", .binary .bitXor), ("|", .binary .bitOr), ("!", .not),
  ("~", .complement), ("?", .question), (":", .colon), ("(", .opening), (")", .closing)]

/-- The first token of a text, and the text behind it. -/
private def tokenOf (t : Text) : Token × Text :=
  match t.dropWhile fun c => c = ' ' || c = '\t' || c = '\n' with
  | [] => (.ending, [])
  | c :: t =>
    if Text.isDigit c then
      match Numeral.read? true (c :: t) with
      | some n => (.number n.value, n.rest)
      | none => (.unknown, c :: t)
    else if isNameStart c then
      (.variable ((c :: t).takeWhile isNameChar), (c :: t).dropWhile isNameChar)
    else
      match signs.findSome? fun s => (Text.after? s.1.toList (c :: t)).map (s.2, ·) with
      | some found => found
      | none => (.unknown, c :: t)

/-- The tokens of a text. A text that goes on with no token goes on so for ever. -/
private def tokensOf : Nat → Text → List Token
  | 0, _ => []
  | fuel + 1, t =>
    match tokenOf t with
    | (.ending, _) => []
    | (.unknown, _) => [.unknown]
    | (token, rest) => token :: tokensOf fuel rest

private def truth (b : Bool) : Int := if b then 1 else 0

/-- The bits of two integers, joined one by one. -/
private def bitwise (f : Nat → Nat → Nat) (a b : Int) : Int :=
  let size : Int := wordSize integerBits
  wrapped (f (a % size).toNat (b % size).toNat)

private def Binary.apply (op : Binary) (a b : Int) : Except Fault Int :=
  match op with
  | .mul => .ok (wrapped (a * b))
  | .div => if b = 0 then .error .divisionByZero else .ok (wrapped (a.tdiv b))
  | .rem => if b = 0 then .error .divisionByZero else .ok (a.tmod b)
  | .add => .ok (wrapped (a + b))
  | .sub => .ok (wrapped (a - b))
  | .shiftLeft => .ok (wrapped (a * Nat.pow 2 (b % integerBits).toNat))
  | .shiftRight => .ok (a / (Nat.pow 2 (b % integerBits).toNat : Nat))
  | .less => .ok (truth (a < b))
  | .lessEqual => .ok (truth (a ≤ b))
  | .greater => .ok (truth (b < a))
  | .greaterEqual => .ok (truth (b ≤ a))
  | .equal => .ok (truth (a == b))
  | .unequal => .ok (truth (a != b))
  | .bitAnd => .ok (bitwise Nat.land a b)
  | .bitXor => .ok (bitwise Nat.xor a b)
  | .bitOr => .ok (bitwise Nat.lor a b)

/-- What an expression can know of the variables. -/
structure Scope where
  value? : Text → Option Text
  isReadOnly : Text → Bool

/-- The tokens that are left of an expression, and what it has assigned, the latest first. -/
structure State where
  tokens : List Token
  assigned : List (Text × Int) := []

/-- The evaluation of an expression. -/
abbrev Evaluation := StateT State (Except Fault)

private def peek : Evaluation Token := do return (← get).tokens.headD .ending

private def take : Evaluation Token := do
  let t ← peek
  modify fun s => { s with tokens := s.tokens.tail }
  return t

/-- The integer that a variable holds; one without a value holds zero. -/
private def valueOf (scope : Scope) (name : Text) : Evaluation Int := do
  match (← get).assigned.find? fun a => a.1 = name with
  | some (_, n) => return n
  | none =>
    let text := (scope.value? name).getD []
    match integer? true text with
    | some n => return n
    | none => throw (.notNumber text)

private def assign (scope : Scope) (name : Text) (n : Int) : Evaluation Int := do
  if scope.isReadOnly name then throw (.notAssigned name)
  modify fun s => { s with assigned := (name, n) :: s.assigned }
  return n

/-- An operand: a number, a variable, or an expression in parentheses, behind its signs. -/
private def operand (scope : Scope) (inner : Bool → Evaluation Int) (counts : Bool) :
    Nat → Evaluation Int
  | 0 => throw .missingOperand
  | fuel + 1 => do
    match ← take with
    | .number n => return n
    | .variable name => if counts then valueOf scope name else return 0
    | .opening =>
      let n ← inner counts
      if (← take) = .closing then return n else throw .missingClosing
    | .binary .add => operand scope inner counts fuel
    | .binary .sub => return wrapped (-(← operand scope inner counts fuel))
    | .not => return truth ((← operand scope inner counts fuel) == 0)
    | .complement => return -(← operand scope inner counts fuel) - 1
    | _ => throw .missingOperand

/-- The operators of rank below `limit` behind an operand, and their operands. -/
private def operations (scope : Scope) (inner : Bool → Evaluation Int) (counts : Bool) :
    Nat → Nat → Int → Evaluation Int
  | 0, _, _ => throw .missingOperand
  | fuel + 1, limit, a => do
    match ← peek with
    | .binary op =>
      if op.rank < limit then
        let _ ← take
        let b ← operand scope inner counts fuel
        let b ← operations scope inner counts fuel op.rank b
        let a ← if counts then op.apply a b else pure b
        operations scope inner counts fuel limit a
      else return a
    | _ => return a

private def conjunction (scope : Scope) (inner : Bool → Evaluation Int) (counts : Bool) :
    Nat → Evaluation Int
  | 0 => throw .missingOperand
  | fuel + 1 => do
    let a ← operations scope inner counts fuel 8 (← operand scope inner counts fuel)
    if (← peek) = .both then
      let _ ← take
      let b ← conjunction scope inner (counts && a ≠ 0) fuel
      return truth (a ≠ 0 && b ≠ 0)
    else return a

private def disjunction (scope : Scope) (inner : Bool → Evaluation Int) (counts : Bool) :
    Nat → Evaluation Int
  | 0 => throw .missingOperand
  | fuel + 1 => do
    let a ← conjunction scope inner counts fuel
    if (← peek) = .either then
      let _ ← take
      let b ← disjunction scope inner (counts && a = 0) fuel
      return truth (a ≠ 0 || b ≠ 0)
    else return a

private def condition (scope : Scope) (inner : Bool → Evaluation Int) (counts : Bool) :
    Nat → Evaluation Int
  | 0 => throw .missingOperand
  | fuel + 1 => do
    let a ← disjunction scope inner counts fuel
    if (← peek) = .question then
      let _ ← take
      let b ← inner (counts && a ≠ 0)
      if (← take) ≠ .colon then throw .missingColon
      let c ← condition scope inner (counts && a = 0) fuel
      return if a ≠ 0 then b else c
    else return a

/-- An expression in which expressions stand at most so deep. Where it does not count, neither
variables nor operators have an effect. -/
private def expression (scope : Scope) : Nat → Bool → Evaluation Int
  | 0, _ => throw .missingOperand
  | depth + 1, counts => do
    let inner := expression scope depth
    let size := (← get).tokens.length + 8
    match (← get).tokens with
    | .variable name :: .assign op :: rest =>
      modify fun s => { s with tokens := rest }
      let b ← inner counts
      if !counts then return b
      match op with
      | none => assign scope name b
      | some op => assign scope name (← op.apply (← valueOf scope name) b)
    | _ => condition scope inner counts size

/-- The value of an expression, and what it assigns, the latest first. -/
def evaluate (scope : Scope) (t : Text) : Except Fault (Int × List (Text × Int)) := do
  let tokens := tokensOf t.length t
  let (n, s) ← (expression scope (tokens.length + 1) true).run { tokens := tokens }
  if s.tokens.isEmpty then return (n, s.assigned) else throw .trailing

end ConversationFlow.Shell.Arithmetic
