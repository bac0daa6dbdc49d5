import ConversationFlow.Shell.Arithmetic
import ConversationFlow.Shell.Fields
import ConversationFlow.Shell.Machine
import ConversationFlow.Shell.Pattern

/-!
# Expansion of words

Evaluating a word replaces its expansions by values. Depending on where the word stands,
its value is then split into fields that are matched against file names, or it stays one
text, or it becomes a pattern. What runs a command inside a word is a parameter.
-/

/-! ## File names

A pattern for files is matched piece by piece between its slashes. A name that begins with
a dot is matched only by a piece that begins with one too. What comes out keeps the
spelling of the pieces that are no patterns.
-/

namespace ConversationFlow.Shell.FileNames

/-- The pieces of a pattern between its slashes, which a backslash does not change. -/
private def pieces (pattern : Text) : List Text := go [] pattern
where
  go : Text → Text → List Text
  | read, [] => [read.reverse]
  | read, '\\' :: '/' :: t => read.reverse :: go [] t
  | read, '\\' :: c :: t => go (c :: '\\' :: read) t
  | read, '/' :: t => read.reverse :: go [] t
  | read, c :: t => go (c :: read) t

/-- Whether a bracket in front of a text is closed in it. -/
private def closes : Text → Bool
  | [] => false
  | '\\' :: _ :: t => t.contains ']'
  | _ :: t => t.contains ']'

private def isPattern : Text → Bool
  | [] => false
  | '\\' :: _ :: t => isPattern t
  | '*' :: _ | '?' :: _ => true
  | '[' :: '!' :: t => closes t || isPattern t
  | '[' :: t => closes t || isPattern t
  | _ :: t => isPattern t

private def unescaped : Text → Text
  | '\\' :: c :: t => c :: unescaped t
  | c :: t => c :: unescaped t
  | [] => []

/-- The names in a directory, with those of itself and the one above. -/
private def entries (fs : FileSystem) (directory : Text) : List Text :=
  match fs.locate (pathOf (if directory.isEmpty then ['.'] else directory)) with
  | .ok l =>
    if fs.node? l == some .directory then
      ['.'] :: ['.', '.'] :: (fs.children l).map octets
    else []
  | .error _ => []

private def fits (piece name : Text) : Bool :=
  let shown := match piece with
    | '\\' :: p => p
    | p => p
  (name.head? ≠ some '.' || shown.head? = some '.') && Pattern.accepts piece name

/-- The files behind a directory that the pieces lead to. -/
private def walk (fs : FileSystem) : Text → List Text → List Text
  | directory, [] => [directory]
  | directory, [piece] =>
    if isPattern piece then
      ((entries fs directory).filter (fits piece)).map (directory ++ ·)
    else
      let path := directory ++ unescaped piece
      if fs.pathExists (pathOf path) then [path] else []
  | directory, piece :: rest =>
    if isPattern piece then
      ((entries fs directory).filter (fits piece)).flatMap fun name =>
        walk fs (directory ++ name ++ "/") rest
    else walk fs (directory ++ unescaped piece ++ "/") rest

/-- The files that have the form of a pattern, in order; none if the text is no pattern. -/
def matching (fs : FileSystem) (pattern : Text) : List Text :=
  if (pieces pattern).any isPattern then
    (walk fs [] (pieces pattern)).mergeSort fun a b => !Text.before b a
  else []

end ConversationFlow.Shell.FileNames

/-! ## Words -/

namespace ConversationFlow.Shell

/-- How a word is evaluated. `splits` tells that its value is split into fields, and `inner`
that it stands in an expansion itself, so that its own characters are split too. Home
directories are looked for at the start, and with `afterColons` behind colons. -/
structure Manner where
  splits : Bool := false
  inner : Bool := false
  homes : Bool := false
  afterColons : Bool := false

namespace Expansion

/-- The value of a parameter: one text, or arguments that are to stay apart. -/
private def valueOf (m : Machine) (splits quoted : Bool) (name : Text) : Option Text :=
  let joined (separator : Text) : Option Text := some (Text.join separator m.arguments)
  let bySeparator : Option Text :=
    joined (match m.get? "IFS" with
      | some (c :: _) => [c]
      | some [] => []
      | none => [' '])
  match name with
  | ['@'] => if splits then joined [Cell.border] else bySeparator
  | ['*'] => if splits && !quoted then joined [Cell.border] else bySeparator
  | _ => m.value? name

/-- The value of a parameter as a piece. -/
private def pieceOf (m : Machine) (quoted : Bool) (name value : Text) : Piece :=
  let splitting : Splitting :=
    if !quoted then .fields
    else if name = ['@'] && !m.arguments.isEmpty then .arguments
    else .whole
  ⟨splitting, Cell.ofText quoted value⟩

/-- The directory that a tilde with a name stands for. -/
private def home? (m : Machine) (name : Text) : Option Text :=
  if name.isEmpty then m.get? "HOME"
  else if name = "root".toList then some "/root" else none

/-- Unquoted characters in which home directories are filled in, where one may stand at the
start if `atStart` holds. `last` tells that the word ends with them. -/
private def fillHomes (m : Machine) (afterColons last : Bool) : Nat → Bool → Text → List Cell
  | 0, _, t => Cell.ofText false t
  | _, _, [] => []
  | fuel + 1, atStart, c :: t =>
    let plain (c : Char) : List Cell :=
      .char c false :: fillHomes m afterColons last fuel (afterColons && c = ':') t
    if atStart && c = '~' then
      let name := t.takeWhile fun d => d ≠ '/' && !(afterColons && d = ':')
      let rest := t.drop name.length
      match if rest.isEmpty && !last then none else home? m name with
      | some home => Cell.ofText true home ++ fillHomes m afterColons last fuel false rest
      | none => plain c
    else plain c

private def plainRun (w : Word) : Word := w.takeWhile fun
  | .char _ false => true
  | _ => false

/-- Complains about a parameter that has to have a value. -/
private def complain {α : Type} (name : Text) (unlessEmpty : Bool) (message : Option Text) :
    Action α :=
  Action.fail (name ++ ": " ++ match message with
    | some t => t
    | none => "parameter not set" ++ (if unlessEmpty then " or null" else ""))

/-- The value of an arithmetic expression. -/
private def calculate (expression : Text) : Action Text := do
  let m ← get
  let scope : Arithmetic.Scope :=
    ⟨m.value?, fun name => (m.vars.get? name).any (·.readOnly)⟩
  match Arithmetic.evaluate scope expression with
  | .ok (n, assigned) =>
    for (name, n) in assigned.reverse do Action.assign name (some (Text.ofInt n))
    return Text.ofInt n
  | .error fault => Action.fail (fault.message expression)

private def bareText (pieces : List Piece) : Text := Cell.bare (pieces.flatMap (·.cells))

/-- The pieces of a word's value, in reverse. `quoting` tells that a quotation is open. -/
private def pieces (output : Option Command → Action Text) (manner : Manner) :
    Nat → Bool → Word → List Piece → Action (List Piece)
  | 0, _, _, done => return done
  | _, _, [], done => return done
  | fuel + 1, quoting, p :: rest, done => do
    let go (rest : Word) (new : List Piece) : Action (List Piece) :=
      pieces output { manner with homes := false } fuel quoting rest (new ++ done)
    let inside (w : Word) (manner : Manner) : Action (List Piece) := do
      return (← pieces output { manner with homes := true } fuel false w []).reverse
    match p with
    | .char _ false =>
      let run := plainRun (p :: rest)
      let behind := (p :: rest).drop run.length
      let t := Word.bare run
      let m ← get
      let cells := if manner.homes || manner.afterColons then
          fillHomes m manner.afterColons behind.isEmpty (t.length + 1) manner.homes t
        else Cell.ofText false t
      go behind [⟨if manner.inner then .fields else .whole, cells⟩]
    | .char c true => go rest [⟨.whole, [.char c true]⟩]
    | .mark =>
      match rest with
      | .parameter ['@'] .value false true [] :: .mark :: behind =>
        if quoting then
          pieces output { manner with homes := false } fuel false rest (⟨.whole, [.mark]⟩ :: done)
        else
          let m ← get
          go behind [pieceOf m true ['@'] ((valueOf m manner.splits true ['@']).getD [])]
      | rest =>
        pieces output { manner with homes := false } fuel (!quoting) rest
          (⟨.whole, [.mark]⟩ :: done)
    | .output command quoted =>
      let t ← output command
      go rest [⟨if quoted then .whole else .fields, Cell.ofText quoted t⟩]
    | .arithmetic expression quoted =>
      let inner ← inside expression {}
      let t ← calculate (bareText inner)
      go rest [⟨if quoted then .whole else .fields, Cell.ofText quoted t⟩]
    | .parameter name op unlessEmpty quoted word =>
      if op = .unknown then Action.fail "Bad substitution"
      let m ← get
      let value := valueOf m manner.splits quoted name
      let present := value.any fun v => !(unlessEmpty && v.isEmpty)
      let value := value.getD []
      let needed : Action Unit := do
        if !present && m.hasOption 'u' then complain name false none
      match op with
      | .unknown => go rest []
      | .value =>
        needed
        go rest (if present then [pieceOf m quoted name value] else [])
      | .length =>
        needed
        go rest [pieceOf m quoted name (Text.ofNat value.length)]
      | .orElse =>
        if present then go rest [pieceOf m quoted name value]
        else go rest (← inside word { manner with inner := !quoted }).reverse
      | .instead =>
        if present then go rest (← inside word { manner with inner := !quoted }).reverse
        else go rest (if quoted then [] else [⟨.fields, []⟩])
      | .orFail =>
        if present then go rest [pieceOf m quoted name value]
        else
          let message ← inside word {}
          complain name unlessEmpty (if word.isEmpty then none else some (bareText message))
      | .orAssign =>
        if present then go rest [pieceOf m quoted name value]
        else
          let value := bareText (← inside word {})
          Action.assign name (some value)
          go rest [pieceOf (← get) quoted name value]
      | .trimStart longest =>
        needed
        if present then
          let pattern := Cell.pattern ((← inside word {}).flatMap (·.cells))
          go rest [pieceOf m quoted name (Pattern.trimStart longest pattern value)]
        else go rest []
      | .trimEnd longest =>
        needed
        if present then
          let pattern := Cell.pattern ((← inside word {}).flatMap (·.cells))
          go rest [pieceOf m quoted name (Pattern.trimEnd longest pattern value)]
        else go rest []

/-- The value of a word. -/
private def value (output : Option Command → Action Text) (manner : Manner) (w : Word) :
    Action (List Piece) := do
  return (← pieces output manner (Part.sizeOfWord w + 1) false w []).reverse

/-- The fields of a word. Those that are patterns become the files that match, if there are
any. -/
def fields (output : Option Command → Action Text) (w : Word) : Action (List Text) := do
  let value ← value output { splits := true, homes := true } w
  let m ← get
  return (Fields.split m.separators none value).flatMap fun cells =>
    let matching := if m.hasOption 'f' then []
      else FileNames.matching m.world.files (Cell.pattern cells)
    if matching.isEmpty then [Cell.bare cells] else matching

/-- The text of a word that is not split. -/
def text (output : Option Command → Action Text) (w : Word) : Action Text := do
  return bareText (← value output { homes := true } w)

/-- The value that an assignment gives. -/
def assigned (output : Option Command → Action Text) (w : Word) : Action Text := do
  return bareText (← value output { homes := true, afterColons := true } w)

/-- The text of a document. -/
def document (output : Option Command → Action Text) (w : Word) : Action Text := do
  return bareText (← value output {} w)

/-- The pattern that a word writes. -/
def pattern (output : Option Command → Action Text) (w : Word) : Action Text := do
  return Cell.pattern ((← value output { homes := true } w).flatMap (·.cells))

end Expansion

end ConversationFlow.Shell
