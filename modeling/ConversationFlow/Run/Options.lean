import ConversationFlow.Detector.Basic
import ConversationFlow.Template
import ConversationFlow.Value.Duration

/-!
# Options of a run

What the caller of a run decides, other than the conversation does.
-/

namespace ConversationFlow

/-- The options of a run. A conversation that sets no time for its commands takes that of
the options. -/
structure RunOptions where
  cwd : Path
  nonce : Text := []
  maxTokens : Nat := 128000
  detector : DetectorSettings := {}
  vars : Variables := .empty
  exposesWorkflow : Bool := false
  checkpointDir : Option Path := none
  commandTimeout : Option Duration := none
  isStreaming : Bool := false

/-- The options of a batch. -/
structure BatchOptions where
  concurrency : Nat := 1
  continuesOnError : Bool := false
  progressFile : Option Path := none
deriving DecidableEq

end ConversationFlow
