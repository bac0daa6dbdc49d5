import ConversationFlow.Shell.Source

/-!
# Reading words

A word ends at a blank, a line end or an operator that is not quoted. Inside it stand
quotations, and expansions that hold words and commands of their own. The reader of
commands is a parameter here, since commands are made of words in their turn.
-/

namespace ConversationFlow.Shell

/-- A document being read in which expansions take place. -/
structure OpenDocument where
  delimiter : Text
  stripsTabs : Bool

/-- The text behind a line that consists of the delimiter. -/
def afterDelimiter? (delimiter : Text) (t : Text) : Option Text :=
  match Text.after? delimiter t with
  | some [] => some []
  | some ('\n' :: rest) => some rest
  | _ => none

/-- What quoted text ends with. In braces a brace may be escaped, and in a document quotation
marks outside braces stand for themselves. -/
structure Quotation where
  closer : Option Char
  inBraces : Bool := false
  document : Option OpenDocument := none

namespace Reading

/-- Characters between single quotes, up to the closing one. -/
private def literalParts : Nat → List Part → Reading (List Part)
  | 0, _ => fail .openQuote
  | fuel + 1, read => do
    match ← next? with
    | none => fail .openQuote
    | some '\'' => return read
    | some c => literalParts fuel (.char c true :: read)

/-- The name that begins here, of the characters that satisfy `p`. -/
private def nameOf (p : Char → Bool) : Nat → Text → Reading Text
  | 0, name => return name.reverse
  | fuel + 1, name => do
    match ← peek? with
    | some c =>
      if p c then
        let _ ← next?
        nameOf p fuel (c :: name)
      else return name.reverse
    | none => return name.reverse

/-- The text between backquotes, in which some backslashes are taken off. -/
private def backquoted (doubled : Bool) : Nat → Text → Reading Text
  | 0, _ => fail .openSubstitution
  | fuel + 1, read => do
    match ← take? with
    | none => fail .openSubstitution
    | some '`' => return read.reverse
    | some '\\' =>
      match ← next? with
      | none => fail .openSubstitution
      | some c =>
        let isEscape := ['\\', '`', '$'].contains c || (doubled && c = '"')
        backquoted doubled fuel (if isEscape then c :: read else c :: '\\' :: read)
    | some c => backquoted doubled fuel (c :: read)

/-- Ends the documents that are pending where no text follows. -/
private def dropPending : Reading Unit :=
  modify fun s => { s with pending := [] }

/-- A command between backquotes: a script of its own. Text behind its commands is ignored. -/
private def backquotePart (commands : Reading (Option Command)) (doubled : Bool) :
    Reading Part := do
  let text ← backquoted doubled (← budget) []
  let outer ← get
  set { outer with rest := text, line := 1, ahead := none, expanding := [], pending := [] }
  let command ← commands
  let inner ← get
  set { outer with documents := inner.documents }
  return .output command doubled

/-- A command between parentheses. -/
private def outputPart (commands : Reading (Option Command)) (doubled : Bool) :
    Reading Part := do
  let outer ← get
  set { outer with pending := [] }
  let command ← commands
  match (← get).ahead with
  | some .closing =>
    modify fun s => { s with ahead := none, pending := outer.pending }
    return .output command doubled
  | some t => fail (.unexpected t.shown (some Token.closing.shown))
  | none => fail (.unexpected Token.ending.shown (some Token.closing.shown))

/-- The kinds of text that expansions stand in. -/
private inductive Surrounding where
  | plain
  | doubled
  | arithmetic
deriving DecidableEq

/-- The operator that follows the name of a parameter in braces, and whether it treats an empty
value like none. A sign that is no operator is passed over. -/
private def operator : Reading (Operator × Bool) := do
  let colon ← accept ':'
  match ← take? with
  | some '\x7d' => return (.value, colon)
  | some '-' => return (.orElse, colon)
  | some '+' => return (.instead, colon)
  | some '?' => return (.orFail, colon)
  | some '=' => return (.orAssign, colon)
  | some '#' => if colon then return (.unknown, true) else return (.trimStart (← accept '#'), false)
  | some '%' => if colon then return (.unknown, true) else return (.trimEnd (← accept '%'), false)
  | _ => return (.unknown, colon)

/-- The name of a parameter in braces and its operator. -/
private def parameterHead : Reading (Text × Operator × Bool) := do
  match ← peek? with
  | none | some '\x7d' => return ([], .unknown, false)
  | some c =>
    if isNameStart c then
      let name ← nameOf isNameChar (← budget) []
      return (name, ← operator)
    else if Text.isDigit c then
      let name ← nameOf Text.isDigit (← budget) []
      return (name, ← operator)
    else
      let _ ← next?
      if c ≠ '#' then
        if isSpecialName c then return ([c], ← operator) else return ([], .unknown, false)
      else
        match ← peek? with
        | none => return (['#'], ← operator)
        | some d =>
          if isNameChar d then
            let name ← nameOf (if isNameStart d then isNameChar else Text.isDigit) (← budget) []
            let closed := (← peek?) = some '\x7d'
            return (name, if closed then .length else .unknown, false)
          else
            let before ← get
            let _ ← next?
            if d ≠ '\x7d' && (← peek?) = some '\x7d' then
              return ([d], if isSpecialName d then .length else .unknown, false)
            else
              set before
              return (['#'], ← operator)

mutual

/-- What a dollar sign begins. -/
private def dollarPart (commands : Reading (Option Command)) (around : Surrounding)
    (document : Option OpenDocument) : Nat → Reading Part
  | 0 => fail .tooDeep
  | fuel + 1 => do
    let quoted := around ≠ .plain
    match ← peek? with
    | some '(' =>
      let _ ← next?
      if ← accept '(' then
        return .arithmetic (← arithmeticParts commands document fuel 0 []).reverse quoted
      else outputPart commands quoted
    | some '\x7b' =>
      let _ ← next?
      let (name, op, unlessEmpty) ← parameterHead
      if op = .value then return .parameter name .value unlessEmpty quoted []
      else
        let trims := match op with
          | .trimStart _ | .trimEnd _ => true
          | _ => false
        let word ← if trims || around = .plain then plainParts commands true fuel []
          else quotedParts commands { closer := some '\x7d', inBraces := true, document } false fuel []
        return .parameter name op unlessEmpty quoted word.reverse
    | some c =>
      if isNameStart c then
        return .parameter (← nameOf isNameChar (← budget) []) .value false quoted []
      else if isSpecialName c then
        let _ ← next?
        return .parameter [c] .value false quoted []
      else return .char '$' quoted
    | none => return .char '$' quoted

/-- The parts of an arithmetic expression, up to the parentheses that close it, in reverse. -/
private def arithmeticParts (commands : Reading (Option Command))
    (document : Option OpenDocument) : Nat → Nat → List Part → Reading (List Part)
  | 0, _, _ => fail .openArithmetic
  | fuel + 1, depth, read => do
    match ← take? with
    | none => fail .openArithmetic
    | some '\\' =>
      match ← next? with
      | none => fail .openArithmetic
      | some c =>
        let isEscape := ['\\', '`', '$'].contains c || (c = '"' && document.isNone)
        let read := if isEscape then read else .char '\\' true :: read
        arithmeticParts commands document fuel depth (.char c true :: read)
    | some '`' =>
      let p ← backquotePart commands true
      arithmeticParts commands document fuel depth (p :: read)
    | some '$' =>
      let p ← dollarPart commands .arithmetic document fuel
      arithmeticParts commands document fuel depth (p :: read)
    | some '(' => arithmeticParts commands document fuel (depth + 1) (.char '(' true :: read)
    | some ')' =>
      match depth with
      | depth + 1 => arithmeticParts commands document fuel depth (.char ')' true :: read)
      | 0 =>
        if ← accept ')' then return read
        else arithmeticParts commands document fuel 0 (.char ')' true :: read)
    | some c => arithmeticParts commands document fuel depth (.char c true :: read)

/-- The parts of quoted text, up to its end, in reverse. -/
private def quotedParts (commands : Reading (Option Command)) (q : Quotation) (lineStart : Bool) :
    Nat → List Part → Reading (List Part)
  | 0, _ => fail .tooDeep
  | fuel + 1, read => do
    let ended ← match q.document with
      | some d =>
        if lineStart then
          let _ ← peek?
          if d.stripsTabs then modify fun s => { s with rest := s.rest.dropWhile (· = '\t') }
          let s ← get
          match afterDelimiter? d.delimiter s.rest with
          | some rest =>
            set { s with rest, line := s.line + 1 }
            pure true
          | none => pure false
        else pure false
      | none => pure false
    let c ← if ended then pure none else if lineStart && q.document.isSome then next? else take?
    match c with
    | none =>
      match q.closer, q.document with
      | none, _ => return read
      | some _, some _ => fail .openBrace
      | some _, none => fail .openQuote
    | some '\n' => quotedParts commands q true fuel (.char '\n' true :: read)
    | some '\\' =>
      match ← next? with
      | none => quotedParts commands q false fuel (.char '\\' true :: read)
      | some c =>
        let isEscape := ['\\', '`', '$'].contains c
          || (c = '"' && (q.document.isNone || q.inBraces)) || (c = '\x7d' && q.inBraces)
        let read := if isEscape then read else .char '\\' true :: read
        quotedParts commands q false fuel (.char c true :: read)
    | some '`' =>
      let p ← backquotePart commands true
      quotedParts commands q false fuel (p :: read)
    | some '$' =>
      let p ← dollarPart commands .doubled q.document fuel
      quotedParts commands q false fuel (p :: read)
    | some c =>
      if q.closer = some c then return read
      else if c = '"' && q.closer.isSome then
        let read := if q.document.isNone then .mark :: read else read
        let read ← quotedParts commands { q with closer := some '"' } false fuel read
        let read := if q.document.isNone then .mark :: read else read
        quotedParts commands q false fuel read
      else quotedParts commands q false fuel (.char c true :: read)

/-- The parts of a word outside quotes, up to its end, in reverse. In braces it ends at the
closing brace, else before the character that ends the word. -/
private def plainParts (commands : Reading (Option Command)) (inBraces : Bool) :
    Nat → List Part → Reading (List Part)
  | 0, _ => fail .tooDeep
  | fuel + 1, read => do
    match ← peek? with
    | none => if inBraces then fail .openBrace else return read
    | some '\\' =>
      let _ ← next?
      match ← next? with
      | none => plainParts commands inBraces fuel (.char '\\' true :: read)
      | some c => plainParts commands inBraces fuel (.char c true :: read)
    | some '\'' =>
      let _ ← next?
      let read ← literalParts (← budget) (.mark :: read)
      plainParts commands inBraces fuel (.mark :: read)
    | some '"' =>
      let _ ← next?
      let q : Quotation := { closer := some '"', inBraces }
      let read ← quotedParts commands q false fuel (.mark :: read)
      plainParts commands inBraces fuel (.mark :: read)
    | some '`' =>
      let _ ← next?
      let p ← backquotePart commands false
      plainParts commands inBraces fuel (p :: read)
    | some '$' =>
      let _ ← next?
      let p ← dollarPart commands .plain none fuel
      plainParts commands inBraces fuel (p :: read)
    | some c =>
      if inBraces then
        let _ ← next?
        if c = '\x7d' then return read else plainParts commands inBraces fuel (.char c false :: read)
      else if ['\n', ' ', '\t', '<', '>', '(', ')', ';', '&', '|'].contains c then return read
      else
        let _ ← next?
        plainParts commands inBraces fuel (.char c false :: read)

end

/-- A word, which may be empty. -/
def word (commands : Reading (Option Command)) : Reading Word := do
  return (← plainParts commands false (2 * (← budget)) []).reverse

/-- The word that ends a document, in which a dollar sign or a backquote stands for itself. -/
def delimiterWord : Nat → List Part → Reading Word
  | 0, _ => fail .tooDeep
  | fuel + 1, read => do
    match ← peek? with
    | none => return read.reverse
    | some '\\' =>
      let _ ← next?
      match ← next? with
      | none => delimiterWord fuel (.char '\\' true :: read)
      | some c => delimiterWord fuel (.char c true :: read)
    | some '\'' =>
      let _ ← next?
      let read ← literalParts (← budget) (.mark :: read)
      delimiterWord fuel (.mark :: read)
    | some '"' =>
      let _ ← next?
      let read ← doubledText (← budget) (.mark :: read)
      delimiterWord fuel (.mark :: read)
    | some c =>
      if ['\n', ' ', '\t', '<', '>', '(', ')', ';', '&', '|'].contains c then return read.reverse
      else
        let _ ← next?
        delimiterWord fuel (.char c false :: read)
where
  /-- Text between double quotes without expansions. -/
  doubledText : Nat → List Part → Reading (List Part)
  | 0, _ => fail .openQuote
  | fuel + 1, read => do
    match ← take? with
    | none => fail .openQuote
    | some '"' => return read
    | some '\\' =>
      match ← next? with
      | none => fail .openQuote
      | some c =>
        let isEscape := ['\\', '`', '$', '"'].contains c
        let read := if isEscape then read else .char '\\' true :: read
        doubledText fuel (.char c true :: read)
    | some c => doubledText fuel (.char c true :: read)

/-- The lines of a document without expansions, in reverse. -/
private def literalDocument (d : OpenDocument) : Nat → List Part → Reading (List Part)
  | 0, read => return read
  | fuel + 1, read => do
    if d.stripsTabs then modify fun s => { s with rest := s.rest.dropWhile (· = '\t') }
    let s ← get
    match afterDelimiter? d.delimiter s.rest with
    | some rest =>
      set { s with rest, line := s.line + 1 }
      return read
    | none =>
      let text := s.rest.takeWhile (· ≠ '\n')
      let read := text.foldl (fun read c => .char c true :: read) read
      match s.rest.drop text.length with
      | [] =>
        set { s with rest := [] }
        return read
      | _ :: rest =>
        set { s with rest, line := s.line + 1 }
        literalDocument d fuel (.char '\n' true :: read)

/-- Reads the documents that begin on this line. -/
def pendingDocuments (commands : Reading (Option Command)) : Reading Unit := do
  let pending := (← get).pending
  dropPending
  for p in pending do
    let d : OpenDocument := ⟨p.delimiter, p.stripsTabs⟩
    let body ← if p.isLiteral then literalDocument d (← budget) []
      else quotedParts commands { closer := none, document := some d } true (2 * (← budget)) []
    modify fun s => { s with documents := s.documents.setIfInBounds p.number body.reverse }

end Reading

end ConversationFlow.Shell
