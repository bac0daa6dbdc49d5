import ConversationFlow.Files.Glob

/-!
# Context errors

Why the context of a conversation or a reference into a file cannot be resolved.
-/

namespace ConversationFlow

/-- Why a pattern or a reference names no files. -/
inductive PatternFault where
  | empty
  | pathMissing
  | glob (e : GlobError)
  | other (message : Text)
deriving DecidableEq

def PatternFault.message : PatternFault → Text
  | .empty => "empty pattern"
  | .pathMissing => "missing path"
  | .glob e => e.message
  | .other message => message

/-- Why a range of lines is none. -/
inductive RangeFault where
  | formExpected
  | tooLarge
  | zero
  | reversed
  | pastEnd (lines : Nat)
  | other (message : Text)
deriving DecidableEq

def RangeFault.message : RangeFault → Text
  | .formExpected => "expected L<n>, L<n>-L<m> or L<n>-"
  | .tooLarge => "line number too large"
  | .zero => "lines are numbered from 1"
  | .reversed => "end line before start line"
  | .pastEnd lines => "file has only " ++ Text.ofNat lines ++ " lines"
  | .other message => message

/-- Why context cannot be resolved. -/
inductive ContextError where
  | missingFiles (patterns : List Text)
  | fileNotFound (path : Path)
  | invalidPattern (pattern : Text) (fault : PatternFault)
  | invalidRange (reference : Text) (fault : RangeFault)
  | io (path : Path) (cause : FileError)
deriving DecidableEq

namespace ContextError

def message : ContextError → Text
  | .missingFiles patterns => "Mandatory context matched no files: " ++ Text.join ", " patterns
  | .fileNotFound path => "File not found: " ++ path.text
  | .invalidPattern pattern fault => "Invalid pattern '" ++ pattern ++ "': " ++ fault.message
  | .invalidRange reference fault =>
    "Invalid line range in '" ++ reference ++ "': " ++ fault.message
  | .io path cause => "IO error reading " ++ path.text ++ ": " ++ cause.message

/-- Whether the files are absent, which lenient validation allows. -/
def isMissing : ContextError → Bool
  | .missingFiles _ | .fileNotFound _ => true
  | _ => false

end ContextError

end ConversationFlow
