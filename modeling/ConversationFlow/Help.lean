import ConversationFlow.Text.Case

/-!
# Help topics

The help texts that a conversation can send along. Topics are found in any case
and with blanks around them.
-/

namespace ConversationFlow.Help

private def directives : String :=
  "ConversationFile directives are upper-case keywords at the start of a line. " ++
  "PROMPT sends text to the agent, RUN executes a command, CHECKPOINT saves progress, " ++
  "COMPACT asks the agent to summarise its context, and ELIDE merges the steps on either " ++
  "side of it into a single turn."

private def workflow : String :=
  "This conversation runs as a workflow of ordered steps. Each cycle is one pass over " ++
  "all steps. Work incrementally, keep changes small, and report what you changed at the " ++
  "end of each turn."

private def elide : String :=
  "Several steps were merged into this single message. Sections marked with command " ++
  "output show what ran just before this message was sent; respond to the whole message at once."

private def stopFile : String :=
  "If you determine that the automation should stop (for example because the work is " ++
  "done or a human must review something), create the stop file described in the instructions " ++
  "with a JSON body containing a \"reason\" field."

private def verify : String :=
  "VERIFY steps check references, links and traceability. When a verification fails " ++
  "its report is included in the conversation; fix the reported problems before moving on."

private def context : String :=
  "Files listed as context are included at the start of the conversation. Paths are " ++
  "shown before each file. Treat them as the current state of the repository."

/-- The topics with their texts, in their fixed order. -/
def topics : List (String × String) := [
  ("directives", directives), ("workflow", workflow), ("elide", elide),
  ("stop-file", stopFile), ("verify", verify), ("context", context)]

/-- The text of a topic. -/
def find? (name : Text) : Option Text :=
  let wanted := Text.lower (Text.trim name)
  (topics.find? fun t => t.1.toList = wanted).map fun t => t.2.toList

/-- One topic under a heading. -/
def section? (name : Text) : Option Text :=
  (find? name).map fun text => "## Help: " ++ Text.lower name ++ "\n\n" ++ text

/-- The topics that exist, under their headings. -/
def render (names : List Text) : Text := Text.join "\n\n" (names.filterMap section?)

end ConversationFlow.Help
