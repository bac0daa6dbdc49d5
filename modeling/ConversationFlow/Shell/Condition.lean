import ConversationFlow.Shell.Arithmetic
import ConversationFlow.Shell.Program

/-!
# Conditions

A condition is written in words: operands, operators on one or two of them, and signs that
combine conditions. What could be an operator is an operand where the words around it leave
no other reading.
-/

namespace ConversationFlow.Shell.Condition

/-- What a word means in a condition. -/
private inductive Role where
  | ending
  | operand
  | unary (letter : Char)
  | binary
  | negation
  | both
  | either
  | opening
  | closing
deriving DecidableEq

private def binaryOperators : List String :=
  ["=", "!=", "<", ">", "-eq", "-ne", "-ge", "-gt", "-le", "-lt", "-nt", "-ot", "-ef"]

private def role? (t : Text) : Option Role :=
  match t with
  | ['!'] => some .negation
  | ['('] => some .opening
  | [')'] => some .closing
  | ['-', 'a'] => some .both
  | ['-', 'o'] => some .either
  | t =>
    if binaryOperators.any fun o => o.toList = t then some .binary
    else
      match t with
      | ['-', c] => if "rwxefdcbpugkstznhOGLS".toList.contains c then some (.unary c) else none
      | _ => none

/-- What the first of some words means. -/
private def roleOf (words : List Text) : Role :=
  match words with
  | [] => .ending
  | t :: rest =>
    let isOperand : Bool := match rest with
      | [] => true
      | [_] => false
      | next :: _ => role? next = some .binary
    match role? t with
    | some (.unary c) => if isOperand then .operand else .unary c
    | some .opening => if rest.isEmpty then .operand else .opening
    | some r => r
    | none => .operand

/-- Evaluation of a condition, with the words from the one looked at on. -/
private abbrev Evaluation := StateT (List Text) (Except Text)

private def advance : Evaluation Unit := modify List.tail

private def number (t : Text) : Evaluation Int :=
  match integer? false t with
  | some n => return n
  | none => throw ("Illegal number: " ++ t)

/-- Whether what a letter asks for holds of a text or of the file that it names. -/
def holds (fs : FileSystem) (letter : Char) (t : Text) : Bool :=
  let path := pathOf t
  let isProgram := (fs.programAt? t).isSome
  match letter with
  | 'n' => !t.isEmpty
  | 'z' => t.isEmpty
  | 'f' => fs.isFile path || isProgram
  | 'd' => fs.isDirectory path
  | 'x' => fs.isDirectory path || isProgram
  | 'c' => Device.isNamed t
  | 's' =>
    match fs.nodeAt? path with
    | some (.file bytes) => !bytes.isEmpty
    | some .directory => true
    | none => isProgram
  | 'e' | 'r' | 'w' | 'O' | 'G' => fs.pathExists path || isProgram || Device.isNamed t
  | _ => false

/-- How the files that two texts name stand to each other. -/
def relates (fs : FileSystem) (a op b : Text) : Bool :=
  match String.ofList op with
  | "-nt" => fs.pathExists (pathOf a) && !fs.pathExists (pathOf b)
  | "-ot" => fs.pathExists (pathOf b) && !fs.pathExists (pathOf a)
  | "-ef" =>
    match fs.locate (pathOf a), fs.locate (pathOf b) with
    | .ok l, .ok m => l == m
    | _, _ => false
  | _ => false

private def compare (fs : FileSystem) (a op b : Text) : Evaluation Bool := do
  match String.ofList op with
  | "=" => return a == b
  | "!=" => return a != b
  | "<" => return Text.before a b
  | ">" => return Text.before b a
  | "-nt" | "-ot" | "-ef" => return relates fs a op b
  | op =>
    let x ← number a
    let y ← number b
    return match op with
      | "-eq" => x == y
      | "-ne" => x != y
      | "-ge" => y ≤ x
      | "-gt" => y < x
      | "-le" => x ≤ y
      | _ => x < y

mutual

private def disjunction (fs : FileSystem) : Nat → Role → Evaluation Bool
  | 0, _ => return false
  | fuel + 1, r => do
    let first ← conjunction fs fuel r
    if roleOf (← get).tail ≠ .either then return first
    advance
    advance
    let rest ← disjunction fs fuel (roleOf (← get))
    return first || rest

private def conjunction (fs : FileSystem) : Nat → Role → Evaluation Bool
  | 0, _ => return false
  | fuel + 1, r => do
    let first ← negated fs fuel r
    if roleOf (← get).tail ≠ .both then return first
    advance
    advance
    let rest ← conjunction fs fuel (roleOf (← get))
    return first && rest

private def negated (fs : FileSystem) : Nat → Role → Evaluation Bool
  | 0, _ => return false
  | fuel + 1, .negation => do
    let next := roleOf (← get).tail
    if next ≠ .ending then advance
    return !(← negated fs fuel next)
  | fuel + 1, r => primary fs fuel r

private def primary (fs : FileSystem) : Nat → Role → Evaluation Bool
  | 0, _ => return false
  | _, .ending => return false
  | fuel + 1, .opening => do
    advance
    let next := roleOf (← get)
    if next = .closing then return false
    let result ← disjunction fs fuel next
    advance
    if roleOf (← get) ≠ .closing then throw ("closing paren expected" : Text)
    return result
  | _, .unary letter => do
    advance
    match ← get with
    | [] => throw ('-' :: letter :: ": argument expected".toList)
    | t :: _ =>
      if letter = 't' then
        let _ ← number t
      return holds fs letter t
  | _, _ => do
    match ← get with
    | [] => return false
    | a :: rest =>
      if roleOf rest = .binary then
        advance
        advance
        match rest with
        | op :: b :: _ => compare fs a op b
        | op :: _ => throw (op ++ (": argument expected" : Text))
        | [] => return false
      else return !a.isEmpty

end

/-- The value of a condition whose first word has a role that is known already. -/
private def whole (fs : FileSystem) (words : List Text) (r : Role) : Except Text Bool := do
  let (result, rest) ← (disjunction fs (4 * words.length + 8) r).run words
  match rest with
  | a :: _ :: _ => throw ((if a.isEmpty then [] else a ++ (": " : Text)) ++ ("unexpected operator" : Text))
  | _ => return result

/-- Whether a condition holds where signs of negation in front of it have been taken off or
not. Three or four words are read by what stands in their middle and at their ends. -/
private def judge (fs : FileSystem) (negates : Bool) (words : List Text) : Except Text Bool := do
  let result (r : Except Text Bool) : Except Text Bool := return (← r) != negates
  let isShort := words.length = 3 || words.length = 4
  if words.isEmpty then return negates
  else if words.length = 3 && words[1]?.bind role? = some .binary then
    result (whole fs words .operand)
  else if isShort && words.head? = some ['('] && words.getLast? = some [')'] then
    let inner := words.tail.dropLast
    result (whole fs inner (roleOf inner))
  else
    match words with
    | ['!'] :: rest =>
      if isShort then judge fs true rest else result (whole fs words (roleOf words))
    | words => result (whole fs words (roleOf words))

/-- Whether a condition holds, or what is wrong with it. -/
def evaluate (fs : FileSystem) (words : List Text) : Except Text Bool := judge fs false words

end ConversationFlow.Shell.Condition
