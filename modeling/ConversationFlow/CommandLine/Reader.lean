import ConversationFlow.CommandLine.Syntax
import ConversationFlow.Files.Path
import ConversationFlow.Value.Scalar
import ConversationFlow.Value.Basic

/-!
# Reading the command line

The words of a command line are taken one by one. An option whose value is a word of its own
stays open until that word has come, and what is open is read only when the next thing that is
known begins. So a word that means nothing is refused before the value that stands in front of it.
-/

namespace ConversationFlow

namespace CommandLine

/-- Why a text is no count. -/
inductive CountFault where
  | empty
  | invalidDigit
  | tooLarge
  | tooSmall
  | outside (n : Int)
deriving DecidableEq

def CountFault.message : CountFault → Text
  | .empty => "cannot parse integer from empty string"
  | .invalidDigit => "invalid digit found in string"
  | .tooLarge => "number too large to fit in target type"
  | .tooSmall => "number too small to fit in target type"
  | .outside n => Text.ofInt n ++ " is not in 0..=4294967295"

/-- Why a command line is refused. -/
inductive UsageError where
  | missingValue (what : Text)
  | invalidValue (value what reason : Text)
  | repeated (what : Text)
  | unexpectedValue (value what : Text)
  | unexpectedWord (word : Text)
  | unknownCommand (word : Text)
  | missingCommand
  | missingOperand (what : Text)
deriving DecidableEq

def UsageError.message : UsageError → Text
  | .missingValue what => "a value is required for '" ++ what ++ "' but none was supplied"
  | .invalidValue value what reason =>
    "invalid value '" ++ value ++ "' for '" ++ what ++ "': " ++ reason
  | .repeated what => "the argument '" ++ what ++ "' cannot be used multiple times"
  | .unexpectedValue value what =>
    "unexpected value '" ++ value ++ "' for '" ++ what ++ "' found; no more were expected"
  | .unexpectedWord word => "unexpected argument '" ++ word ++ "' found"
  | .unknownCommand word => "unrecognized subcommand '" ++ word ++ "'"
  | .missingCommand =>
    "'" ++ programName.toList ++ "' requires a subcommand but one was not provided"
  | .missingOperand what =>
    "the following required arguments were not provided:\n  " ++ what

/-- Why there is nothing to do. -/
inductive Halt where
  | help (scope : Scope)
  | version
  | usage
  | refused (e : UsageError)
deriving DecidableEq

/-- What one option or operand gives. -/
inductive Argument where
  | config (path : Path)
  | logLevel (level : Text)
  | plan
  | cycles (n : Nat)
  | assign (name value : Text)
  | cwd (path : Path)
  | output (path : Path)
  | file (path : Path)
deriving DecidableEq

/-- The option that an argument comes from. -/
def Argument.switch? : Argument → Option Switch
  | .config _ => some .config
  | .logLevel _ => some .logLevel
  | .plan => some .plan
  | .cycles _ => some .cycles
  | .assign .. => some .assign
  | .cwd _ => some .cwd
  | .output _ => some .output
  | .file _ => none

/-! ## Values -/

/-- The digits of a number with a sign, which must lie in 64 bits at every digit. -/
def signedDigits (negative : Bool) : Int → Text → Except CountFault Int
  | n, [] => .ok n
  | n, c :: t =>
    if !Text.isDigit c then .error .invalidDigit
    else
      let digit : Int := c.toNat - '0'.toNat
      let m := if negative then n * 10 - digit else n * 10 + digit
      if (wordSize 63 : Int) ≤ m then .error .tooLarge
      else if m < -(wordSize 63 : Int) then .error .tooSmall
      else signedDigits negative m t

/-- A whole number below `2 ^ 32`, which may carry a sign. -/
def readCount (t : Text) : Except CountFault Nat := do
  let n ← match t with
    | [] => .error .empty
    | ['+'] | ['-'] => .error .invalidDigit
    | '+' :: t => signedDigits false 0 t
    | '-' :: t => signedDigits true 0 t
    | t => signedDigits false 0 t
  if 0 ≤ n ∧ n < (wordSize 32 : Int) then return n.toNat else throw (.outside n)

/-- A path, which may not be empty. -/
private def readPath (what value : Text) : Except UsageError Path :=
  if value.isEmpty then .error (.missingValue what) else .ok ⟨value⟩

/-- What takes values: an option, or the operand of a command. -/
inductive Slot where
  | switch (s : Switch)
  | operand (v : Verb)
deriving DecidableEq

namespace Slot

def shown : Slot → Text
  | .switch s => s.shown.toList
  | .operand v => v.operand.toList

/-- Reads a value. -/
def read (slot : Slot) (value : Text) : Except UsageError (List Argument) :=
  let path (f : Path → Argument) : Except UsageError (List Argument) :=
    (readPath slot.shown value).map fun p => [f p]
  match slot with
  | .operand _ => path .file
  | .switch .config => path .config
  | .switch .cwd => path .cwd
  | .switch .output => path .output
  | .switch .logLevel => .ok [.logLevel value]
  | .switch .plan => .ok [.plan]
  | .switch .cycles =>
    match readCount value with
    | .ok n => .ok [.cycles n]
    | .error e => .error (.invalidValue value slot.shown e.message)
  | .switch .assign =>
    match Assignment.read value with
    | .ok (name, v) => .ok [.assign name v]
    | .error e => .error (.invalidValue value slot.shown e.message)
  | .switch .help | .switch .version => .ok []

/-- Whether an argument of this slot stands among others. -/
def isTaken (slot : Slot) (taken : List Argument) : Bool :=
  match slot with
  | .operand _ | .switch .assign => false
  | .switch s => taken.any fun a => a.switch? = some s

end Slot

/-! ## Words -/

/-- The words read so far: what they give, what is open with the values it has, and whether all
further words are operands. -/
structure Reading where
  taken : List Argument := []
  pending : Option (Slot × List Text) := none
  onlyOperands : Bool := false

namespace Reading

/-- Takes a slot with its values. -/
def store (r : Reading) (slot : Slot) (values : List Text) : Except UsageError Reading := do
  if values.isEmpty then throw (.missingValue slot.shown)
  if slot.isTaken r.taken then throw (.repeated slot.shown)
  let arguments ← values.mapM slot.read
  return { r with taken := r.taken ++ arguments.flatten }

/-- Takes what is open. -/
def settle (r : Reading) : Except UsageError Reading :=
  match r.pending with
  | none => .ok r
  | some (slot, values) => { r with pending := none }.store slot values

/-- Whether the next word is the value of an option. -/
def awaitsValue (r : Reading) : Bool :=
  match r.pending with
  | some (.switch _, []) => true
  | _ => false

/-- Whether an operand has come. -/
def hasOperand (r : Reading) : Bool :=
  r.taken.any (fun a => a.switch?.isNone) ||
    match r.pending with
    | some (.operand _, _) => true
    | _ => false

/-- Takes an option that has no value. -/
private def flag (r : Reading) (scope : Scope) (s : Switch) : Except Halt Reading := do
  let r ← r.settle.mapError Halt.refused
  match s with
  | .help => throw (.help scope)
  | .version => throw .version
  | _ => (r.store (.switch s) [[]]).mapError Halt.refused

/-- Takes an option, with its value if that is attached. -/
private def option (r : Reading) (scope : Scope) (s : Switch) (attached : Option Text) :
    Except Halt Reading :=
  if s.takesValue then do
    let r ← r.settle.mapError Halt.refused
    match attached with
    | some value => (r.store (.switch s) [value]).mapError Halt.refused
    | none => return { r with pending := some (.switch s, []) }
  else
    match attached with
    | some value => .error (.refused (.unexpectedValue value s.shown.toList))
    | none => r.flag scope s

/-- A long option, without its dashes. -/
private def long (r : Reading) (scope : Scope) (t : Text) : Except Halt Reading :=
  let (name, attached) : Text × Option Text :=
    match Text.cutAt? '=' t with
    | some (name, value) => (name, some value)
    | none => (t, none)
  match scope.ofLong? name with
  | some s => r.option scope s attached
  | none => .error (.refused (.unexpectedWord ('-' :: '-' :: name)))

/-- An option's letter, and what stands behind it in the same word. -/
private def letter (r : Reading) (scope : Scope) (c : Char) (t : Text) : Except Halt Reading :=
  match scope.ofLetter? c with
  | some s =>
    if s.takesValue then
      r.option scope s (match t with | [] => none | '=' :: value => some value | value => some value)
    else r.flag scope s
  | none => .error (.refused (.unexpectedWord ['-', c]))

/-- An operand. -/
private def operand (r : Reading) (scope : Scope) (w : Text) : Except Halt Reading :=
  match scope with
  | .command v =>
    match r.pending, v.takesMany with
    | some (.operand v, values), true =>
      .ok { r with pending := some (.operand v, values ++ [w]) }
    | _, many =>
      if r.hasOperand && !many then .error (.refused (.unexpectedWord w))
      else do
        let r ← r.settle.mapError Halt.refused
        return { r with pending := some (.operand v, [w]) }
  | _ =>
    .error (.refused
      (if w = "help".toList ∨ (Verb.ofName? w).isSome then .unexpectedWord w
      else .unknownCommand w))

/-- Takes a word. -/
def take (r : Reading) (scope : Scope) (w : Text) : Except Halt Reading :=
  if r.onlyOperands then r.operand scope w
  else
    match w with
    | ['-', '-'] => .ok { r with onlyOperands := true }
    | '-' :: '-' :: t => r.long scope t
    | '-' :: c :: t => r.letter scope c t
    | _ =>
      match r.pending with
      | some (.switch s, []) => .ok { r with pending := some (.switch s, [w]) }
      | _ => r.operand scope w

/-- Takes words to their end. -/
def takeAll (scope : Scope) (words : List Text) : Except Halt (List Argument) := do
  let r ← words.foldlM (fun r w => r.take scope w) { : Reading }
  return (← r.settle.mapError Halt.refused).taken

end Reading

end CommandLine

open CommandLine

/-- What a command works on. -/
inductive CommandLine.Job where
  | validate (files : List Path)
  | render (file : Path) (plan : Bool) (cycles : Option Nat) (assignments : List (Text × Text))
    (cwd output : Option Path)
  | inspect (file : Path)

/-- A command line that asks for a job. -/
structure CommandLine where
  config : Option Path
  logLevel : Option Text
  job : Job

namespace CommandLine

/-- The scope whose help is asked for by these names. -/
def helpScope : List Text → Except Halt Scope
  | [] => .ok .program
  | w :: rest => do
    let scope ← match Verb.ofName? w with
      | some v => pure (.command v)
      | none => if w = "help".toList then pure .help else throw (.refused (.unknownCommand w))
    match rest with
    | [] => return scope
    | w :: _ => throw (.refused (.unknownCommand w))

/-- The job of a command with these arguments, which must name a file. -/
def Job.ofArguments (v : Verb) (arguments : List Argument) : Except Halt Job :=
  let files := arguments.filterMap fun | .file p => some p | _ => none
  match files, v with
  | [], _ => .error (.refused (.missingOperand v.operand.toList))
  | files, .validate => .ok (.validate files)
  | file :: _, .inspect => .ok (.inspect file)
  | file :: _, .render =>
    .ok (.render file
      (arguments.contains .plan)
      (arguments.findSome? fun | .cycles n => some n | _ => none)
      (arguments.filterMap fun | .assign name value => some (name, value) | _ => none)
      (arguments.findSome? fun | .cwd p => some p | _ => none)
      (arguments.findSome? fun | .output p => some p | _ => none))

/-- Reads the words before the command, and from there on the command's. What is set behind the
command counts before what is set in front of it. -/
def readFrom (r : Reading) : List Text → Except Halt CommandLine
  | [] => do
    let r ← r.settle.mapError Halt.refused
    throw (if r.taken.isEmpty then .usage else .refused .missingCommand)
  | w :: words =>
    if r.onlyOperands || r.awaitsValue then do readFrom (← r.take .program w) words
    else if w = "help".toList then do throw (.help (← helpScope words))
    else
      match Verb.ofName? w with
      | none => do readFrom (← r.take .program w) words
      | some v => do
        let arguments ← Reading.takeAll (.command v) words
        let job ← Job.ofArguments v arguments
        let arguments := arguments ++ (← r.settle.mapError Halt.refused).taken
        return {
          config := arguments.findSome? fun | .config p => some p | _ => none
          logLevel := arguments.findSome? fun | .logLevel l => some l | _ => none
          job }

/-- Reads the words behind the name of the program. -/
def read (words : List Text) : Except Halt CommandLine := readFrom {} words

end CommandLine

end ConversationFlow
