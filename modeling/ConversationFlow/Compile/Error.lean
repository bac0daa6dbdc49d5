import ConversationFlow.Directive.Keyword
import ConversationFlow.Files.FileSystem
import ConversationFlow.Value.Basic

/-!
# Compilation errors

Why a conversation file does not compile, each with the line at which it shows.
-/

namespace ConversationFlow

/-- A line of a file, or of a text that has no file. -/
structure SourceLine where
  file : Option Path
  line : Nat

namespace SourceLine

def text (s : SourceLine) : Text :=
  match s.file with
  | some file => file.text ++ ":" ++ Text.ofNat s.line
  | none => "line " ++ Text.ofNat s.line

instance : BEq SourceLine := ⟨fun a b => a.file == b.file && a.line == b.line⟩

end SourceLine

/-- The two blocks that a command or a check may own. -/
inductive BlockKind where
  | onFailure
  | onSuccess
deriving DecidableEq

def BlockKind.text : BlockKind → Text
  | .onFailure => "ON-FAILURE"
  | .onSuccess => "ON-SUCCESS"

/-- An error of structure or of a value. -/
inductive ParseError where
  | invalidValue (line : SourceLine) (directive : Keyword) (value : Text) (reason : ValueError)
  | missingValue (line : SourceLine) (directive : Keyword)
  | blockWithoutRun (line : SourceLine) (block : BlockKind)
  | nestedBlock (line : SourceLine) (block : BlockKind)
  | unclosedBlock (line : SourceLine) (block : BlockKind)
  | endWithoutBlock (line : SourceLine)
  | duplicateBlock (line : SourceLine) (block : BlockKind)
  | retryWithoutRun (line : SourceLine)
  | includeCycle (line : SourceLine) (cycle : List Path)
  | unknownHelpTopic (line : SourceLine) (topic : Text)

def ParseError.message : ParseError → Text
  | .invalidValue l d v r =>
    l.text ++ ": invalid value for " ++ d.name ++ ": '" ++ v ++ "' (" ++ r.message ++ ")"
  | .missingValue l d => l.text ++ ": " ++ d.name ++ " requires a value"
  | .blockWithoutRun l b => l.text ++ ": " ++ b.text ++ " without preceding RUN (or VERIFY) step"
  | .nestedBlock l b =>
    l.text ++ ": nested block: " ++ b.text ++ " inside an open ON-FAILURE/ON-SUCCESS block"
  | .unclosedBlock l b => l.text ++ ": unclosed block: " ++ b.text ++ " has no matching END"
  | .endWithoutBlock l => l.text ++ ": END without an open ON-FAILURE/ON-SUCCESS block"
  | .duplicateBlock l b => l.text ++ ": " ++ b.text ++ " declared twice for the same step"
  | .retryWithoutRun l => l.text ++ ": RUN-RETRY without preceding RUN"
  | .includeCycle l cycle =>
    l.text ++ ": include cycle: " ++ Text.join " -> " (cycle.map (·.text))
  | .unknownHelpTopic l topic => l.text ++ ": unknown help topic '" ++ topic ++ "'"

/-- An error of a conversation or of a file that it is made of. -/
inductive CompileError where
  | parse (e : ParseError)
  | fileNotFound (path : Path) (includedFrom : Option SourceLine)
  | io (path : Path) (cause : FileError)

def CompileError.message : CompileError → Text
  | .parse e => e.message
  | .fileNotFound path none => "File not found: " ++ path.text
  | .fileNotFound path (some l) =>
    "File not found: " ++ path.text ++ " (included from " ++ l.text ++ ")"
  | .io path cause => "IO error reading " ++ path.text ++ ": " ++ cause.message

end ConversationFlow
