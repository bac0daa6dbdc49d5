import ConversationFlow.Yaml.Tag

/-!
# The tokens of a YAML text

In the block form the column of a part says which list or mapping it belongs to. A scalar is a
mapping key if a colon follows it on its line within 1024 characters; the token that announces a
key is put in front of it when the colon is found.
-/

namespace ConversationFlow.Yaml

/-- A token that a colon may make a mapping key: how many tokens stand before it, where it began,
and whether nothing else is possible at its column. -/
private structure PossibleKey where
  before : Nat
  index : Nat
  line : Nat
  column : Nat
  isRequired : Bool

/-- The state of reading: the place, the column of the innermost list or mapping of the block form
(`-1` outside of all) and of those around it, the latest possible key of every level of the flow
form, the innermost first, whether a key may begin here, and the tokens so far, the latest
first. -/
private structure Lexing where
  place : Cursor
  indent : Int := -1
  outer : List Int := []
  key : Option PossibleKey := none
  outerKeys : List (Option PossibleKey) := []
  allowsKey : Bool := true
  tokens : List Token := []

namespace Lexing

private def inFlow (s : Lexing) : Bool := !s.outerKeys.isEmpty

private def push (s : Lexing) (t : Token) : Lexing := { s with tokens := t :: s.tokens }

/-- Puts a token where `before` tokens stand before it. -/
private def insert (s : Lexing) (before : Nat) (t : Token) : Lexing :=
  let later := s.tokens.length - before
  { s with tokens := s.tokens.take later ++ t :: s.tokens.drop later }

/-- A possible key that a colon no longer follows; one that had to be a key is an error. -/
private def dropKey (s : Lexing) : Option Lexing :=
  if s.key.any (·.isRequired) then none else some { s with key := none }

/-- Lets the next token be a key if one may begin here. -/
private def offerKey (s : Lexing) : Option Lexing :=
  if s.allowsKey then do
    let s ← s.dropKey
    let c := s.place
    return { s with key := some {
      before := s.tokens.length, index := c.index, line := c.line, column := c.column
      isRequired := !s.inFlow && s.indent = (c.column : Int) } }
  else some s

/-- Gives up the possible keys of an earlier line or more than 1024 characters before. -/
private def expireKeys (s : Lexing) : Option Lexing :=
  let expire (k : Option PossibleKey) : Option (Option PossibleKey) :=
    match k with
    | some p =>
      if p.line < s.place.line || p.index + 1024 < s.place.index then
        if p.isRequired then none else some none
      else some k
    | none => some none
  do return { s with key := ← expire s.key, outerKeys := ← s.outerKeys.mapM expire }

/-- Opens a list or mapping of the block form if the column is deeper than the one around;
`open?` says by which token and after how many others. -/
private def indentTo (s : Lexing) (column : Nat) (before : Nat) (t : Token) : Lexing :=
  if !s.inFlow && s.indent < (column : Int) then
    { s.insert before t with indent := column, outer := s.indent :: s.outer }
  else s

/-- Closes the lists and mappings of the block form that are deeper than a column. -/
private def unindent (s : Lexing) (column : Int) : Lexing :=
  if s.inFlow then s else go s.indent s.outer s.tokens
where
  go (indent : Int) : List Int → List Token → Lexing
  | outer :: rest, tokens =>
    if column < indent then go outer rest (.blockEnd :: tokens)
    else { s with indent, outer := outer :: rest, tokens }
  | [], tokens => { s with indent, outer := [], tokens }

/-- Passes `n` characters that are a token. -/
private def mark (s : Lexing) (n : Nat) (t : Token) : Lexing :=
  { s.push t with place := s.place.skip n }

/-! ## Single tokens -/

private def openFlow (s : Lexing) (t : Token) : Option Lexing := do
  let s ← s.offerKey
  return { s with key := none, outerKeys := s.key :: s.outerKeys, allowsKey := true }.mark 1 t

private def closeFlow (s : Lexing) (t : Token) : Option Lexing := do
  let s ← s.dropKey
  let s := match s.outerKeys with
    | k :: rest => { s with key := k, outerKeys := rest }
    | [] => s
  return { s with allowsKey := false }.mark 1 t

private def comma (s : Lexing) : Option Lexing := do
  return { (← s.dropKey) with allowsKey := true }.mark 1 .comma

/-- The hyphen of an item. -/
private def item (s : Lexing) : Option Lexing := do
  guard (s.inFlow || s.allowsKey)
  let s ← (s.indentTo s.place.column s.tokens.length .blockList).dropKey
  return { s with allowsKey := true }.mark 1 .item

/-- The question mark of a key. -/
private def questionMark (s : Lexing) : Option Lexing := do
  guard (s.inFlow || s.allowsKey)
  let s ← (s.indentTo s.place.column s.tokens.length .blockMap).dropKey
  return { s with allowsKey := !s.inFlow }.mark 1 .key

/-- The colon before a value, which makes a key of the latest possible one. -/
private def colon (s : Lexing) : Option Lexing :=
  match s.key with
  | some k =>
    let s := (s.insert k.before .key).indentTo k.column k.before .blockMap
    some ({ s with key := none, allowsKey := false }.mark 1 .value)
  | none => do
    guard (s.inFlow || s.allowsKey)
    let s := s.indentTo s.place.column s.tokens.length .blockMap
    return { s with allowsKey := !s.inFlow }.mark 1 .value

/-- A mark of a document or a directive, which closes all of the block form. -/
private def boundary (s : Lexing) : Option Lexing := do
  return { (← (s.unindent (-1)).dropKey) with allowsKey := false }

/-- A token that may be a key. -/
private def part (s : Lexing) (read : Cursor → Option (Token × Cursor)) : Option Lexing := do
  let s ← s.offerKey
  let (t, c) ← read s.place
  return { s.push t with place := c, allowsKey := false }

private def plainPart (s : Lexing) : Option Lexing := do
  let s ← s.offerKey
  let (w, broken, c) ← plainScalar? s.inFlow (s.indent + 1) s.place
  return { s.push (.scalar w .plain) with place := c, allowsKey := broken }

private def keptPart (s : Lexing) (folds : Bool) : Option Lexing := do
  let s ← s.dropKey
  let (w, c) ← keptScalar? folds s.indent (s.place.skip 1)
  return { s.push (.scalar w (if folds then .folded else .literal)) with
    place := c, allowsKey := true }

/-! ## The text -/

/-- Passes blanks, comments and line breaks. A tab counts as a blank where no key may begin, and a
key may begin on each new line of the block form. -/
private def skipSpace (fuel : Nat) (s : Lexing) : Lexing :=
  match fuel with
  | 0 => s
  | fuel + 1 =>
    let tabs := s.inFlow || !s.allowsKey
    let c := (s.place.skipRun fun x => x = ' ' || (tabs && x = '\t')).skipComment
    if c.rest.head?.any isBreak then
      skipSpace fuel { s with place := c.passBreak.2, allowsKey := s.allowsKey || !s.inFlow }
    else { s with place := c }

/-- The next token, with those that the indentation puts before it. -/
private def next (s : Lexing) : Option Lexing := do
  let s := (← (skipSpace (s.place.rest.length + 1) s).expireKeys)
  let c := s.place
  let s := s.unindent c.column
  match c.rest with
  | [] => return (← s.boundary).push .streamEnd
  | x :: t =>
    if c.column = 0 && x = '%' then
      let s ← s.boundary
      let (d, c) ← directive? c
      return { s.push d with place := c }
    else if c.isAtMark '-' then return (← s.boundary).mark 3 .documentStart
    else if c.isAtMark '.' then return (← s.boundary).mark 3 .documentEnd
    else if x = '[' then s.openFlow .flowList
    else if x = '{' then s.openFlow .flowMap
    else if x = ']' then s.closeFlow .flowListEnd
    else if x = '}' then s.closeFlow .flowMapEnd
    else if x = ',' then s.comma
    else if x = '-' && endsHere t then s.item
    else if x = '?' && (s.inFlow || endsHere t) then s.questionMark
    else if x = ':' && (s.inFlow || endsHere t) then s.colon
    else if x = '*' then s.part fun c => (anchorName? c).map fun (w, c) => (.alias w, c)
    else if x = '&' then s.part fun c => (anchorName? c).map fun (w, c) => (.anchor w, c)
    else if x = '!' then s.part (tagToken? s.inFlow)
    else if (x = '|' || x = '>') && !s.inFlow then s.keptPart (x = '>')
    else if x = '\'' || x = '"' then
      s.part fun c => (quotedScalar? (x = '\'') (c.skip 1)).map fun (w, c) => (.scalar w .quoted, c)
    else if startsPlain s.inFlow c.rest then s.plainPart
    else none

private def all (fuel : Nat) (s : Lexing) : Option (List Token) :=
  match fuel with
  | 0 => none
  | fuel + 1 => do
    let s ← s.next
    if s.tokens.head? = some .streamEnd then some s.tokens.reverse else all fuel s

end Lexing

/-- The characters that a text may hold. -/
private def isAllowed (c : Char) : Bool :=
  let n := c.toNat
  c = '\t' || c = '\n' || c = '\r' || (' ' ≤ c && c ≤ '~') || n = 0x85
    || (0xA0 ≤ n && n ≤ 0xFFFD) || 0x10000 ≤ n

/-- The tokens of a text, of which the last one is its end. A byte order mark may begin it. -/
def Token.ofText? (t : Text) : Option (List Token) :=
  let c : Cursor := ⟨t, 0, 0, 0⟩
  let start := if c.isAt (Char.ofNat 0xFEFF) then c.skip 1 else c
  if t.all isAllowed then Lexing.all (t.length + 2) { place := start } else none

end ConversationFlow.Yaml
