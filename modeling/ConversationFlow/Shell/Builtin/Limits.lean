import ConversationFlow.Shell.Builtin.Options

/-!
# Limits of a process

What a process may use is limited, and so is what others may do with the files that it makes. The
shell shows and sets both.
-/

namespace ConversationFlow.Shell.Builtin

/-! ## Limits

Each limit has two values: the one that holds, and the one up to which it may be set. -/

/-- The limits in the order in which they are shown. -/
private def limitNames : List (Char × String) := [
  ('t', "time(seconds)"), ('f', "file(blocks)"), ('d', "data(kbytes)"), ('s', "stack(kbytes)"),
  ('c', "coredump(blocks)"), ('m', "memory(kbytes)"), ('l', "locked memory(kbytes)"),
  ('p', "process"), ('n', "nofiles"), ('v', "vmemory(kbytes)"), ('w', "locks"), ('r', "rtprio")]

private def limit (m : Machine) (letter : Char) : Limit :=
  match m.limits.find? fun l => l.1 = letter with
  | some (_, l) => l
  | none => {}

private def shown (value : Option Nat) : Text :=
  match value with
  | some n => Text.ofNat n ++ ['\n']
  | none => "unlimited\n"

/-- Shows or sets a limit. -/
def limits (arguments : List Text) : Action Nat := do
  let letters := ('H', false) :: ('S', false) :: ('a', false) :: limitNames.map fun l => (l.1, false)
  let (options, rest) ← BuiltinOptions.read letters arguments
  let options := options.map (·.1)
  let how := (options.filter fun c => c = 'H' || c = 'S').getLast?
  let all := options.contains 'a'
  let what := (options.filter fun c => !(['H', 'S', 'a'].contains c)).getLast?.getD 'f'
  let value (l : Limit) : Option Nat := if how = some 'H' then l.hard else l.soft
  let m ← get
  match rest with
  | [] =>
    if all then
      for (letter, name) in limitNames do
        let name := name.toList
        Action.print (name ++ List.replicate (21 - name.length) ' ')
        if 20 < name.length then Action.print [' ']
        Action.print (shown (value (limit m letter)))
    else Action.print (shown (value (limit m what)))
  | t :: others =>
    if all || !others.isEmpty then Action.fail "too many arguments"
    if t ≠ "unlimited".toList && !t.all Text.isDigit then Action.fail "bad number"
    let next := if t = "unlimited".toList then none else some (valueOf 10 t)
    let old := limit m what
    let new : Limit :=
      { soft := if how = some 'H' then old.soft else next
        hard := if how = some 'S' then old.hard else next }
    let isAbove := match new.soft, new.hard with
      | _, none => false
      | none, some _ => true
      | some a, some b => b < a
    if isAbove then Action.fail "error setting limit (Invalid argument)"
    set { m with limits := (what, new) :: m.limits.filter fun l => l.1 ≠ what }
  return 0

/-! ## Permissions of new files

A shell holds back permissions from new files. What it holds back is shown and set as a number, or
by what it grants to the owner, the group and all others. -/

/-- The bits that one set of bits has and another has not. -/
private def without (a b : Nat) : Nat := a &&& (b ^^^ 511)

/-- The owners that letters name, each by a bit of its place. -/
private def owners : Text → Nat × Text
  | c :: t =>
    let place := match c with
      | 'a' => some 73
      | 'u' => some 64
      | 'g' => some 8
      | 'o' => some 1
      | _ => none
    match place with
    | some p =>
      let (others, rest) := owners t
      (p ||| others, rest)
    | none => (0, c :: t)
  | [] => (0, [])

/-- The permissions that letters name. A letter of an owner stands for what is granted to it. -/
private def permissions (granted : Nat) : Text → Nat × Text
  | c :: t =>
    let bits := match c with
      | 'r' => some 4
      | 'w' => some 2
      | 'x' => some 1
      | 'u' => some (granted / 64)
      | 'g' => some (granted / 8)
      | 'o' => some granted
      | 'X' => some (if granted &&& 73 = 0 then 0 else 1)
      | 's' => some 0
      | _ => none
    match bits with
    | some b =>
      let (others, rest) := permissions granted t
      (b ||| others, rest)
    | none => (0, c :: t)
  | [] => (0, [])

/-- What a description grants that starts from what is granted now. The owners named last stay
until a comma. A description that is not read to its end is none. -/
private def described (granted : Nat) : Nat → Nat → Nat → Text → Option Nat
  | 0, _, _, _ => none
  | _, _, grants, [] => some grants
  | fuel + 1, named, grants, t =>
    let (more, t) := owners t
    let named := named ||| more
    let named := if named = 0 then 73 else named
    match t with
    | [] => some grants
    | sign :: t =>
      if !(['=', '+', '-'].contains sign) then none
      else
        let (bits, t) := permissions granted t
        let bits := (bits % 8) * named
        let grants := match sign with
          | '-' => without grants bits
          | '+' => grants ||| bits
          | _ => bits ||| without grants (named * 7)
        match t with
        | ',' :: t => described granted fuel 0 grants t
        | [] => some grants
        | c :: t =>
          if ['=', '+', '-'].contains c then described granted fuel named grants (c :: t)
          else none

/-- What is granted, owner by owner. -/
private def description (granted : Nat) : Text :=
  let bits (place : Nat) : Text :=
    let b := granted / place
    (if b / 4 % 2 = 1 then ['r'] else []) ++ (if b / 2 % 2 = 1 then ['w'] else [])
      ++ (if b % 2 = 1 then ['x'] else [])
  ("u=" : Text) ++ bits 64 ++ (",g=" : Text) ++ bits 8 ++ (",o=" : Text) ++ bits 1

/-- Shows or sets the permissions that new files do not get. -/
def fileMask (arguments : List Text) : Action Nat := do
  let (options, rest) ← BuiltinOptions.read [('S', false)] arguments
  let mask := (← get).mask
  match rest with
  | [] =>
    if options.isEmpty then
      let digits := Nat.toDigits 8 mask
      Action.print (List.replicate (4 - digits.length) '0' ++ digits ++ ['\n'])
    else Action.print (description (without 511 mask) ++ ['\n'])
  | t :: _ =>
    if (t.head?).any Text.isDigit then
      if t.all fun c => '0' ≤ c && c ≤ '7' then
        modify fun m => { m with mask := valueOf 8 t % 512 }
      else Action.fail (("Illegal number: " : Text) ++ t)
    else
      let granted := without 511 mask
      match described granted (t.length + 1) 0 granted t with
      | some grants => modify fun m => { m with mask := without 511 grants }
      | none => Action.fail (("Illegal mode: " : Text) ++ t)
  return 0

end ConversationFlow.Shell.Builtin
