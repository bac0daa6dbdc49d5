import ConversationFlow.Files.FileSystem

/-!
# Glob patterns

A pattern is a text in which `?` stands for one character, `*` for any text,
`[...]` for one of several characters and `**`, as a whole component, for any number
of directories. `Glob.accepts` matches a pattern with a whole text; `expand` finds
the paths of a file system that match it component by component.
-/

namespace ConversationFlow

/-- Why a text is no pattern. -/
inductive GlobFault where
  | tooManyStars
  | partialRecursion
  | badRange
deriving DecidableEq

/-- A fault and the character at which it shows. -/
structure GlobError where
  position : Nat
  fault : GlobFault
deriving DecidableEq

def GlobError.message (e : GlobError) : Text :=
  "Pattern syntax error near position " ++ Text.ofNat e.position ++ ": " ++
    match e.fault with
    | .tooManyStars => "wildcards are either regular `*` or recursive `**`"
    | .partialRecursion => "recursive wildcards must form a single path component"
    | .badRange => "invalid range pattern"

namespace Glob

/-- One character of a set, or a range of characters. -/
abbrev CharSet := List (Char × Char)

/-- An element of a pattern. -/
inductive Token where
  | char (c : Char)
  | anyChar
  | within (set : CharSet)
  | except (set : CharSet)
  | anyText
  | anyDirectories
deriving DecidableEq

/-- The characters between brackets: `a-z` is a range. -/
def charSet : Text → CharSet
  | a :: '-' :: b :: rest => (a, b) :: charSet rest
  | a :: rest => (a, a) :: charSet rest
  | [] => []

private def fail {α : Type} (position : Nat) (fault : GlobFault) : Except GlobError α :=
  .error ⟨position, fault⟩

/-- The token at an opening bracket and the number of characters of it. The first character of
a set may be a closing bracket. -/
def bracket? (rest : Text) : Option (Token × Nat) :=
  match rest with
  | '!' :: first :: more =>
    match Text.cutAt? ']' more with
    | some (inner, _) => some (.except (charSet (first :: inner)), inner.length + 4)
    | none => none
  | '!' :: [] => none
  | first :: more =>
    match Text.cutAt? ']' more with
    | some (inner, _) => some (.within (charSet (first :: inner)), inner.length + 3)
    | none => none
  | [] => none

/-- Reads the pattern from `position` on; `before` is the character just before it. -/
def scan (fuel position : Nat) (before : Option Char) (read : List Token) (t : Text) :
    Except GlobError (List Token) :=
  match fuel, t with
  | 0, _ | _, [] => .ok read.reverse
  | fuel + 1, '?' :: rest => scan fuel (position + 1) (some '?') (.anyChar :: read) rest
  | fuel + 1, '*' :: rest =>
    let stars := 1 + (rest.takeWhile (· = '*')).length
    let after := rest.dropWhile (· = '*')
    let next := position + stars
    if 2 < stars then fail (position + 2) .tooManyStars
    else if stars = 1 then scan fuel next (some '*') (.anyText :: read) after
    else if before.isSome && before != some '/' then fail (position - 1) .partialRecursion
    else
      let read := if read.length > 1 && read.head? == some .anyDirectories then read
        else .anyDirectories :: read
      match after with
      | [] => scan fuel next (some '*') read []
      | '/' :: after => scan fuel (next + 1) (some '/') read after
      | _ => fail next .partialRecursion
  | fuel + 1, '[' :: rest =>
    match bracket? rest with
    | some (token, width) =>
      scan fuel (position + width) (some ']') (token :: read) (rest.drop (width - 1))
    | none => fail position .badRange
  | fuel + 1, c :: rest => scan fuel (position + 1) (some c) (.char c :: read) rest

/-- The tokens of a pattern. -/
def tokensOf (t : Text) : Except GlobError (List Token) := scan t.length 0 none [] t

private def inSet (set : CharSet) (c : Char) : Bool := set.any fun (a, b) => a ≤ c && c ≤ b

/-- The ends of a text, the longest first. -/
def ends : Text → List Text
  | [] => [[]]
  | c :: t => (c :: t) :: ends t

/-- The ends of a text that follow a slash. -/
def endsAfterSlash : Text → List Text
  | [] => []
  | c :: t => if c = '/' then t :: endsAfterSlash t else endsAfterSlash t

/-- Whether tokens match a whole text. -/
def matchesFrom : List Token → Text → Bool
  | [], t => t.isEmpty
  | .anyText :: ts, t => (ends t).any (matchesFrom ts)
  | .anyDirectories :: ts, t =>
    matchesFrom ts t || (endsAfterSlash t).any (matchesFrom ts) || matchesFrom ts []
  | .char a :: ts, c :: t => a == c && matchesFrom ts t
  | .anyChar :: ts, _ :: t => matchesFrom ts t
  | .within set :: ts, c :: t => inSet set c && matchesFrom ts t
  | .except set :: ts, c :: t => !inSet set c && matchesFrom ts t
  | _ :: _, [] => false

end Glob

/-- A pattern that has been read. -/
structure Glob where
  text : Text
  tokens : List Glob.Token

namespace Glob

def read (t : Text) : Except GlobError Glob := (tokensOf t).map fun ts => ⟨t, ts⟩

def accepts (g : Glob) (t : Text) : Bool := matchesFrom g.tokens t

/-- Whether a text is meant as a pattern. -/
def isPattern (t : Text) : Bool := t.any fun c => c = '*' || c = '?' || c = '['

/-- Whether the pattern holds a component for any directories. -/
def isRecursive (g : Glob) : Bool := g.tokens.contains .anyDirectories

def isLiteral (g : Glob) : Bool :=
  g.tokens.all fun t => match t with | .char _ => true | _ => false

/-- The current directory, in which entries are shown by their names alone. -/
def isHere (p : Path) : Bool := p == ⟨['.']⟩

def entry (p : Path) (name : Text) : Path := if isHere p then ⟨name⟩ else p.join ⟨name⟩

/-- The names that lead from a directory to the nodes below it. -/
def below (fs : FileSystem) (p : Path) : List (List Text) :=
  match fs.locate p with
  | .error _ => []
  | .ok l =>
    fs.nodes.filterMap fun (m, _) =>
      if m.take l.length = l ∧ l.length < m.length then some (m.drop l.length) else none

def childPaths (fs : FileSystem) (p : Path) : List Path :=
  match fs.locate p with
  | .error _ => []
  | .ok l => (fs.children l).map (entry p)

/-- The paths below `p` that match the components. With `directories`, only directories do. -/
def walk (fs : FileSystem) (directories : Bool) : List Glob → Path → List Path
  | [], p => if !directories || fs.isDirectory p then [p] else []
  | g :: rest, p =>
    if isLiteral g then
      let special := g.text = ['.'] || g.text = ['.', '.']
      let next := entry p g.text
      if (special && fs.isDirectory p) || (!special && fs.pathExists next) then
        walk fs directories rest next
      else []
    else if !fs.isDirectory p then []
    else if g.isRecursive then
      (below fs p).flatMap fun names =>
        let q := names.foldl entry p
        match rest with
        | [] => if fs.isDirectory q then [q] else []
        | h :: rest' =>
          if h.isRecursive then []
          else if q.fileName?.any h.accepts then walk fs directories rest' q
          else []
    else
      let named := (childPaths fs p).flatMap fun q =>
        if q.fileName?.any g.accepts then walk fs directories rest q else []
      let special := [['.'], ['.', '.']].flatMap fun s =>
        if g.tokens.head? == some (.char '.') && g.accepts s then
          walk fs directories rest (p.join ⟨s⟩)
        else []
      named ++ special

/-- Consecutive components for any directories are one. -/
def collapse : List Glob → List Glob
  | g :: h :: rest =>
    if g.isRecursive && h.isRecursive then collapse (h :: rest) else g :: collapse (h :: rest)
  | gs => gs

/-- The components of a pattern, without the end after a final slash. -/
def components (t : Text) : List Text :=
  let parts := t.splitOn '/'
  if parts.getLast? == some [] then parts.dropLast else parts

end Glob

/-- The existing paths that match a pattern, in increasing order. -/
def FileSystem.expand (fs : FileSystem) (pattern : Text) : Except GlobError (List Path) := do
  let _ ← Glob.read pattern
  let (start, rest) : Path × Text :=
    match pattern with
    | '/' :: rest => (⟨['/']⟩, rest)
    | t => (⟨['.']⟩, t)
  let globs ← (Glob.components rest).mapM Glob.read
  let globs := if rest.isEmpty && !pattern.isEmpty then [⟨[], []⟩] else globs
  if globs.isEmpty then return []
  return Path.sort (Glob.walk fs (pattern.getLast? == some '/') (Glob.collapse globs) start)

end ConversationFlow
