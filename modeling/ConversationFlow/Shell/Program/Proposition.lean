import ConversationFlow.Shell.Condition

/-!
# Propositions

The program that judges conditions reads them by their number of words: up to four words have
one reading, and longer ones are read from left to right. Numbers may be of any size, and the
length of a text can stand for a number.
-/

namespace ConversationFlow.Shell.Proposition

/-- Reading of the words at a place. There may be a word behind the last one that counts. -/
private structure Context where
  files : FileSystem
  words : List Text
  count : Nat

private abbrev Reading := ReaderT Context (StateT Nat (Except Text))

private def word? (i : Nat) : Reading (Option Text) := return (← read).words[i]?

private def word (i : Nat) : Reading Text := return ((← read).words[i]?).getD []

private def here : Reading Text := do word (← get)

private def fault {α : Type} (t : Text) : Reading α := throw t

private def missing {α : Type} : Reading α := do
  let last ← word ((← read).count - 1)
  fault ("missing argument after " ++ Quoted.plain last)

/-- Goes on to the next word, which has to be there. -/
private def advance : Reading Unit := do
  modify (· + 1)
  if (← read).count ≤ (← get) then missing

/-- Goes on by some words. -/
private def pass (n : Nat) : Reading Unit := modify (· + n)

private def binaryOperators : List String :=
  ["=", "!=", "==", "-nt", "-ot", "-ef", "-eq", "-ne", "-lt", "-le", "-gt", "-ge"]

private def isBinary (t : Text) : Bool := binaryOperators.any fun o => o.toList = t

/-- The whole number that a text writes. -/
private def number (t : Text) : Reading Int := do
  let inner := ((t.dropWhile isSpace).reverse.dropWhile isSpace).reverse
  let (negative, digits) := match inner with
    | '+' :: r => (false, r)
    | '-' :: r => (true, r)
    | r => (false, r)
  if digits.isEmpty || !digits.all Text.isDigit then
    fault ("invalid integer " ++ Quoted.plain t)
  return if negative then -(valueOf 10 digits : Int) else valueOf 10 digits

/-- Two operands and what is asked of them. Either number can be the length of a text. -/
private def binary (leftIsLength : Bool) : Reading Bool := do
  if leftIsLength then pass 1
  let op := (← get) + 1
  let rightIsLength := op + 2 < (← read).count && (← word (op + 1)) = ['-', 'l']
  if rightIsLength then pass 1
  let t ← word op
  let name := String.ofList t
  if name = "-nt" || name = "-ot" || name = "-ef" then
    pass 3
    if leftIsLength || rightIsLength then fault (t ++ " does not accept -l")
    return Condition.relates (← read).files (← word (op - 1)) t (← word (op + 1))
  else if t.head? = some '-' then
    let left ← if leftIsLength then pure ((← word (op - 1)).length : Int)
      else number (← word (op - 1))
    let right ← if rightIsLength then pure ((← word (op + 2)).length : Int)
      else number (← word (op + 1))
    pass 3
    return match name with
      | "-eq" => left = right
      | "-ne" => left ≠ right
      | "-lt" => left < right
      | "-le" => left ≤ right
      | "-gt" => right < left
      | _ => right ≤ left
  else
    let isSame := (← here) == (← word ((← get) + 2))
    pass 3
    return if name = "!=" then !isSame else isSame

private def unaryLetters : List Char := "erwxNOGfdsScbpLhugktnz".toList

/-- Whether a word is a dash with a letter. -/
private def isSwitch (t : Text) : Bool := t.head? = some '-' && t.length = 2

private def unary : Reading Bool := do
  let t ← here
  let letter := t.getLastD ' '
  if !unaryLetters.contains letter then
    fault (Quoted.plain t ++ ": unary operator expected")
  advance
  let operand ← here
  pass 1
  if letter = 't' then
    let _ ← number operand
  return Condition.holds (← read).files letter operand

private def one : Reading Bool := do
  let t ← here
  pass 1
  return !t.isEmpty

private def two : Reading Bool := do
  let t ← here
  if t = ['!'] then
    pass 1
    return !(← one)
  else if isSwitch t then unary
  else missing

mutual

private def three : Nat → Reading Bool
  | 0 => return false
  | fuel + 1 => do
    let t ← here
    let middle ← word ((← get) + 1)
    if isBinary middle then binary false
    else if t = ['!'] then
      advance
      return !(← two)
    else if t = ['('] && (← word ((← get) + 2)) = [')'] then
      pass 1
      let holds ← one
      pass 1
      return holds
    else if middle = ['-', 'a'] || middle = ['-', 'o'] then disjunction fuel
    else fault (Quoted.plain middle ++ ": binary operator expected")

/-- So many words as a proposition. -/
private def counted : Nat → Nat → Reading Bool
  | 0, _ => return false
  | fuel + 1, n => do
    let t ← here
    match n with
    | 1 => one
    | 2 => two
    | 3 => three fuel
    | n =>
      if n = 4 && t = ['!'] then
        advance
        return !(← three fuel)
      else if n = 4 && t = ['('] && (← word ((← get) + 3)) = [')'] then
        pass 1
        let holds ← two
        pass 1
        return holds
      else if (← read).count ≤ (← get) then missing
      else disjunction fuel

private def disjunction : Nat → Reading Bool
  | 0 => return false
  | fuel + 1 => do
    let first ← conjunction fuel
    if (← get) < (← read).count && (← here) = ['-', 'o'] then
      pass 1
      let rest ← disjunction fuel
      return first || rest
    else return first

private def conjunction : Nat → Reading Bool
  | 0 => return false
  | fuel + 1 => do
    let first ← term fuel
    if (← get) < (← read).count && (← here) = ['-', 'a'] then
      pass 1
      let rest ← conjunction fuel
      return first && rest
    else return first

private def term : Nat → Reading Bool
  | 0 => return false
  | fuel + 1 => do
    let count := (← read).count
    if count ≤ (← get) then missing
    let t ← here
    let left := count - (← get)
    if t = ['!'] then
      advance
      return !(← term fuel)
    else if t = ['('] then
      advance
      let place ← get
      let inner := ((← read).words.take count).drop (place + 1)
      let before := (inner.takeWhile (· ≠ [')'])).length
      let n := if 3 ≤ before then count - place else before + 1
      let holds ← counted fuel n
      match ← word? (← get) with
      | none => fault "')' expected"
      | some [')'] =>
        pass 1
        return holds
      | some found => fault ("')' expected, found " ++ Quoted.plain found)
    else if 4 ≤ left && t = ['-', 'l'] && isBinary (← word ((← get) + 2)) then binary true
    else if 3 ≤ left && isBinary (← word ((← get) + 1)) then binary false
    else if isSwitch t then unary
    else one

end

/-- Whether the first `count` of some words hold together, or what is wrong with them. -/
def judge (files : FileSystem) (count : Nat) (words : List Text) : Except Text Bool := do
  if count = 0 then return false
  let fuel := 8 * words.length + 16
  let (holds, place) ← ((counted fuel count).run ⟨files, words, count⟩).run 0
  if place < count then
    throw ("extra argument " ++ Quoted.plain ((words[place]?).getD []))
  return holds

end ConversationFlow.Shell.Proposition
