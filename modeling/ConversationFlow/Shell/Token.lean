import ConversationFlow.Shell.Word

/-!
# Reading tokens

A token is a word, an operator or a line end. Whether a word is taken for a keyword or an
alias depends on where it stands, so the reader of commands says what to look for.
-/

namespace ConversationFlow.Shell

/-- What is looked for when a token is read. -/
structure Lookout where
  skipsLines : Bool := false
  keywords : Bool := false
  aliases : Bool := false

/-- Where a command begins, possibly on a later line. -/
def Lookout.command : Lookout := ⟨true, true, true⟩

namespace Reading

/-- Ends the aliases whose text has been read, and tells whether one lets the next word be an
alias too. -/
private def closeAliases : Reading Bool := fun s =>
  if s.expanding.isEmpty then .ok (false, s)
  else
    let left := s.rest.length
    let ended := s.expanding.takeWhile (left ≤ ·.left)
    .ok (ended.any (·.endsBlank), { s with expanding := s.expanding.drop ended.length })

private def skipComment : Reading Unit :=
  modify fun s => { s with rest := s.rest.dropWhile (· ≠ '\n') }

/-- Passes over blanks and comments, and tells whether the word behind them may be an alias
because of the one that ended before. -/
private def skipBlanks : Nat → Bool → Reading Bool
  | 0, found => return found
  | fuel + 1, found => do
    let found := (← closeAliases) || found
    match ← peek? with
    | some ' ' | some '\t' =>
      let _ ← next?
      skipBlanks fuel found
    | some '#' =>
      skipComment
      skipBlanks fuel found
    | _ => return found

/-- The sign of a redirection, which begins here. -/
private def redirectSign (descriptor : Option Nat) : Reading Token := do
  if ← accept '>' then
    let sign : RedirectSign ←
      if ← accept '>' then pure (.file .append)
      else if ← accept '|' then pure (.file (.write true))
      else if ← accept '&' then pure .duplicate
      else pure (.file (.write false))
    return .redirect sign (descriptor.getD 1)
  else
    let _ ← next?
    let sign : RedirectSign ←
      if ← accept '<' then pure (.document (← accept '-'))
      else if ← accept '&' then pure .duplicate
      else if ← accept '>' then pure (.file .readWrite)
      else pure (.file .read)
    return .redirect sign (descriptor.getD 0)

/-- The descriptor that a word in front of a redirection names. -/
private def descriptorOf? : Word → Option (Option Nat)
  | [] => some none
  | [.char c false] => if Text.isDigit c then some (some (c.toNat - '0'.toNat)) else none
  | _ => none

/-- The token that begins here. -/
private def scan (commands : Reading (Option Command)) : Reading Token := do
  let pick (c : Char) (twice once : Token) : Reading Token := do
    let _ ← next?
    return if ← accept c then twice else once
  match ← peek? with
  | none => return .ending
  | some '\n' =>
    let _ ← next?
    return .newline
  | some '&' => pick '&' .both .ampersand
  | some '|' => pick '|' .either .bar
  | some ';' => pick ';' .endOfCase .semicolon
  | some '(' =>
    let _ ← next?
    return .opening
  | some ')' =>
    let _ ← next?
    return .closing
  | some _ =>
    let w ← word commands
    let after ← peek?
    if after = some '<' || after = some '>' then
      match descriptorOf? w with
      | some descriptor => redirectSign descriptor
      | none => return .word w
    else return .word w

/-- Makes a token the next one again. -/
def putBack (t : Token) : Reading Unit := modify fun s => { s with ahead := some t }

/-- Puts the text of an alias in front of what is left, if the word is one that is not being
read already. -/
private def expandAlias (name : Text) : Reading Bool := fun s =>
  match s.aliases.get? name with
  | none => .ok (false, s)
  | some value =>
    if s.expanding.any (·.name = name) then .ok (false, s)
    else
      let endsBlank := value.getLast? = some ' ' || value.getLast? = some '\t'
      .ok (true, { s with
        rest := value ++ s.rest
        expanding := ⟨name, endsBlank, s.rest.length⟩ :: s.expanding })

/-- The next token. -/
def token (commands : Reading (Option Command)) (look : Lookout) : Nat → Reading Token
  | 0 => fail .tooDeep
  | fuel + 1 => do
    let (t, aliasNext) ← match (← get).ahead with
      | some t =>
        modify fun s => { s with ahead := none }
        pure (t, false)
      | none =>
        let aliasNext ← skipBlanks (← budget) false
        pure (← scan commands, aliasNext)
    match t with
    | .newline =>
      if look.skipsLines then
        pendingDocuments commands
        token commands look fuel
      else return t
    | .word w =>
      match w.plain? with
      | none => return t
      | some name =>
        match if look.keywords then Keyword.ofText? name else none with
        | some k => return .keyword k
        | none =>
          if look.aliases || aliasNext then
            if ← expandAlias name then
              token commands { look with aliases := true } fuel
            else return t
          else return t
    | t => return t

/-- Fails at a token that cannot stand where it does. -/
def unexpected {α : Type} (t : Token) (expected : Option Text) : Reading α :=
  fail (.unexpected t.shown expected)

/-- The word that ends a document. -/
def documentDelimiter (commands : Reading (Option Command)) : Reading Word := do
  let _ ← skipBlanks (← budget) false
  match ← peek? with
  | none => unexpected .ending none
  | some c =>
    if ['\n', '<', '>', '(', ')', ';', '&', '|'].contains c then
      unexpected (← scan commands) none
    else delimiterWord (← budget) []

end Reading

end ConversationFlow.Shell
