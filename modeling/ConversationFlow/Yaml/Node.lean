import ConversationFlow.Yaml.Token

/-!
# YAML nodes

The tree that the tokens of a document form. An anchor gives its node a number, and an alias holds
the number of the anchor that it names. The number of an anchor is the count of different names
before it, so a name that is given again may take over a number; a number stands for the last node
that has it.
-/

namespace ConversationFlow.Yaml

/-- A node of a document. -/
inductive Node where
  | scalar (text : Text) (style : ScalarStyle) (tag : Option Text)
  | alias (number : Nat)
  | list (items : List Node)
  | map (entries : List (Node × Node))
  | anchored (number : Nat) (node : Node)
deriving Inhabited

namespace Node

/-- A node that is left out. -/
def empty : Node := .scalar [] .plain none

mutual

/-- The last node with a number. -/
def numbered? (number : Nat) : Node → Option Node
  | .anchored k n => (numbered? number n).orElse fun _ => if k = number then some n else none
  | .list items => inItems? number items
  | .map entries => inEntries? number entries
  | _ => none

private def inItems? (number : Nat) : List Node → Option Node
  | [] => none
  | n :: rest => (inItems? number rest).orElse fun _ => numbered? number n

private def inEntries? (number : Nat) : List (Node × Node) → Option Node
  | [] => none
  | (k, v) :: rest =>
    (inEntries? number rest).orElse fun _ =>
      (numbered? number v).orElse fun _ => numbered? number k

end

/-- The node behind anchors and an alias. -/
def content (n root : Node) : Node :=
  match n with
  | .anchored _ n => content n root
  | .alias k => bare ((numbered? k root).getD empty)
  | n => n
where
  bare : Node → Node
  | .anchored _ n => bare n
  | n => n

/-! ## Reading tokens -/

/-- The tokens to come, the handles of tags, and the number of every name so far. -/
private structure Source where
  tokens : List Token
  handles : List (Text × Text)
  names : List (Text × Nat) := []

private abbrev Reading (α : Type) := StateT Source Option α

private def peek : Reading Token := do (← get).tokens.head?

private def drop : Reading Unit := modify fun s => { s with tokens := s.tokens.tail }

/-- Passes a token if it is the next one. -/
private def accept (t : Token) : Reading Bool := do
  if (← peek) = t then
    drop
    return true
  else return false

/-- Whether one of these tokens is next. -/
private def isNext (ts : List Token) : Reading Bool := return ts.contains (← peek)

/-- The full name of a tag. -/
private def tagName (handle suffix : Text) : Reading Text := do
  if handle.isEmpty then return suffix
  else return (← (← get).handles.lookup handle) ++ suffix

/-- The number of an anchor with this name. -/
private def numberOf (name : Text) : Reading Nat := do
  let s ← get
  let number := s.names.length
  set { s with names := (name, number) :: s.names.filter fun n => n.1 ≠ name }
  return number

/-- An anchor and a tag in either order, each of which may be missing. -/
private def properties : Reading (Option Text × Option Text) := do
  match ← peek with
  | .anchor name =>
    drop
    match ← peek with
    | .tag h s =>
      drop
      return (some name, some (← tagName h s))
    | _ => return (some name, none)
  | .tag h s =>
    drop
    match ← peek with
    | .anchor name =>
      drop
      return (some name, some (← tagName h s))
    | _ => return (none, some (← tagName h s))
  | _ => return (none, none)

mutual

/-- A node. The block form is left out where `inBlock` is false, and a list whose items stand at
the column of the mapping around it is one only where `belowKey` is true. -/
private def node (inBlock belowKey : Bool) (fuel : Nat) : Reading Node :=
  match fuel with
  | 0 => failure
  | fuel + 1 => do
    match ← peek with
    | .alias name =>
      drop
      return .alias (← (← get).names.lookup name)
    | _ =>
      let (anchor, tag) ← properties
      let number ← anchor.mapM numberOf
      let n ← match ← peek, inBlock, belowKey with
        | .item, _, true => .list <$> flatItems fuel
        | .scalar text style, _, _ => do
          drop
          pure (.scalar text style (tag.filter fun t => t ≠ ['!']))
        | .flowList, _, _ => do
          drop
          .list <$> flowItems true fuel
        | .flowMap, _, _ => do
          drop
          .map <$> flowEntries true fuel
        | .blockList, true, _ => do
          drop
          .list <$> blockItems fuel
        | .blockMap, true, _ => do
          drop
          .map <$> blockEntries fuel
        | _, _, _ =>
          if anchor.isSome || tag.isSome then pure (.scalar [] .plain tag) else failure
      return match number with
        | some k => .anchored k n
        | none => n

/-- A node unless one of some tokens is next. -/
private def nodeUnless (ts : List Token) (inBlock belowKey : Bool) (fuel : Nat) : Reading Node :=
  match fuel with
  | 0 => failure
  | fuel + 1 => do
    if ← isNext ts then return .empty else node inBlock belowKey fuel

private def blockItems (fuel : Nat) : Reading (List Node) :=
  match fuel with
  | 0 => failure
  | fuel + 1 => do
    if ← accept .item then
      let n ← nodeUnless [.item, .blockEnd] true false fuel
      return n :: (← blockItems fuel)
    else if ← accept .blockEnd then return []
    else failure

/-- The items of a list that no indentation encloses. -/
private def flatItems (fuel : Nat) : Reading (List Node) :=
  match fuel with
  | 0 => failure
  | fuel + 1 => do
    if ← accept .item then
      let n ← nodeUnless [.item, .key, .value, .blockEnd] true false fuel
      return n :: (← flatItems fuel)
    else return []

private def blockEntries (fuel : Nat) : Reading (List (Node × Node)) :=
  match fuel with
  | 0 => failure
  | fuel + 1 => do
    if ← accept .key then
      let ends := [.key, .value, .blockEnd]
      let k ← nodeUnless ends true true fuel
      let v ← if ← accept .value then nodeUnless ends true true fuel else pure .empty
      return (k, v) :: (← blockEntries fuel)
    else if ← accept .blockEnd then return []
    else failure

/-- The items up to the closing bracket. A comma stands between each two of them, and an item may
be a mapping of one entry. -/
private def flowItems (isFirst : Bool) (fuel : Nat) : Reading (List Node) :=
  match fuel with
  | 0 => failure
  | fuel + 1 => do
    if ← accept .flowListEnd then return []
    else
      if !isFirst then guard (← accept .comma)
      if ← accept .flowListEnd then return []
      else
        let n ← if ← accept .key then (fun e => .map [e]) <$> flowPair fuel else node false false fuel
        return n :: (← flowItems false fuel)

/-- The entry behind the key token of an item. A key that is left out takes the token in its place
with it. -/
private def flowPair (fuel : Nat) : Reading (Node × Node) :=
  match fuel with
  | 0 => failure
  | fuel + 1 => do
    let k ← if ← isNext [.value, .comma, .flowListEnd] then do drop; pure .empty
      else node false false fuel
    let v ← if ← accept .value then nodeUnless [.comma, .flowListEnd] false false fuel
      else pure .empty
    return (k, v)

/-- The entries up to the closing brace. -/
private def flowEntries (isFirst : Bool) (fuel : Nat) : Reading (List (Node × Node)) :=
  match fuel with
  | 0 => failure
  | fuel + 1 => do
    if ← accept .flowMapEnd then return []
    else
      if !isFirst then guard (← accept .comma)
      if ← accept .key then
        let k ← nodeUnless [.value, .comma, .flowMapEnd] false false fuel
        let v ← if ← accept .value then nodeUnless [.comma, .flowMapEnd] false false fuel
          else pure .empty
        return (k, v) :: (← flowEntries false fuel)
      else if ← accept .flowMapEnd then return []
      else
        let k ← node false false fuel
        return (k, .empty) :: (← flowEntries false fuel)

end

/-! ## Documents -/

/-- The handles that every document knows. -/
private def knownHandles : List (Text × Text) :=
  [("!".toList, "!".toList), ("!!".toList, "tag:yaml.org,2002:".toList)]

/-- The handles that the directives of a document give, and the tokens after them. A handle and the
version may be given once, and the version is 1.1 or 1.2. -/
private def directives? (hasVersion : Bool) (handles : List (Text × Text)) :
    List Token → Option (List (Text × Text) × List Token)
  | .version major minor :: rest =>
    if hasVersion || major ≠ 1 || (minor ≠ 1 && minor ≠ 2) then none
    else directives? true handles rest
  | .tagHandle handle stem :: rest =>
    if (handles.lookup handle).isSome then none
    else directives? hasVersion ((handle, stem) :: handles) rest
  | rest => some (handles, rest)

/-- The root of a document, and the tokens after it. -/
private def document? (tokens : List Token) : Option (Node × List Token) := do
  let (handles, rest) ← directives? false [] tokens
  let isExplicit := rest.head? = some .documentStart
  guard (isExplicit || rest.length = tokens.length)
  let source : Source := {
    tokens := if isExplicit then rest.drop 1 else rest, handles := handles ++ knownHandles }
  let fuel := 3 * tokens.length + 3
  let isMissing : Token → Bool
    | .version _ _ | .tagHandle _ _ | .documentStart | .documentEnd | .streamEnd => true
    | _ => false
  if isExplicit && source.tokens.head?.any isMissing then some (.empty, source.tokens)
  else ((node true false fuel).run source).map fun (n, s) => (n, s.tokens)

/-- The root of the one document that tokens form, if any is there. -/
def ofTokens? (tokens : List Token) : Option (Option Node) :=
  if tokens = [.streamEnd] then some none
  else do
    let (n, rest) ← document? tokens
    if rest.dropWhile (· = .documentEnd) = [.streamEnd] then some (some n) else none

end Node

end ConversationFlow.Yaml
