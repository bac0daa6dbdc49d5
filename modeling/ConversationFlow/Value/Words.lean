import ConversationFlow.Value.Basic

/-!
# Words

A value that lists words separates them by blanks. Quotes of either kind keep
blanks and the other quote inside a word; nothing escapes a quote. `Words.join`
writes a list of words and `Words.split?` reads it.
-/

namespace ConversationFlow.Words

/-- The words that are complete, given the word being read in reverse. -/
def finish : Option Text → List Text
  | none => []
  | some w => [w.reverse]

/-- Reads on with the quote that is open and the word being read in reverse; `none` when
the text ends inside a quote. -/
def scan : (quote : Option Char) → (word : Option Text) → Text → Option (List Text)
  | some _, _, [] => none
  | none, word, [] => some (finish word)
  | some q, word, c :: t =>
    if c = q then scan none word t else scan (some q) (some (c :: word.getD [])) t
  | none, word, c :: t =>
    if c = '"' ∨ c = '\'' then scan (some c) (some (word.getD [])) t
    else if Text.isBlank c then (scan none none t).map (finish word ++ ·)
    else scan none (some (c :: word.getD [])) t

/-- The words of a text. -/
def split? (t : Text) : Option (List Text) := scan none none t

/-- The words of a text, or the reason why it has none. -/
def split (t : Text) : Except ValueError (List Text) :=
  match split? t with
  | some ws => .ok ws
  | none => .error .unterminatedQuote

/-- A word as it is written: between quotes if it is empty or holds a blank or a quote. -/
def quote (w : Text) : Text :=
  if w.isEmpty then ['"', '"']
  else if !w.any fun c => Text.isBlank c || c = '"' || c = '\'' then w
  else if w.contains '"' then '\'' :: (w ++ ['\''])
  else '"' :: (w ++ ['"'])

/-- Words as they are written. -/
def join (ws : List Text) : Text := Text.join [' '] (ws.map quote)

end ConversationFlow.Words
