import ConversationFlow.Decimal
import ConversationFlow.Directive.Keyword
import ConversationFlow.Step.Basic
import ConversationFlow.Text.Dictionary
import ConversationFlow.Value.Words

/-!
# Steps as text

The directives that write a step: its own line or lines, its retries, and its blocks.
-/

/-! ## Directives

How a directive with a value of several lines is written: the first line beside the
name, the others indented below it, blank lines empty.
-/

namespace ConversationFlow.Directive

/-- The blanks before the lines of a text value. -/
def margin : Text := List.replicate 4 ' '

/-- A line below the first, on a line of its own. -/
def below (line : Text) : Text :=
  if Text.allBlank line then ['\n'] else '\n' :: (margin ++ line)

/-- A name and the lines of its value. -/
def written (name value : Text) : Text :=
  match Text.lines value with
  | [] => name
  | first :: rest =>
    (if first.isEmpty then name else name ++ ' ' :: first) ++ rest.flatMap below

/-- Options behind a value. -/
def writtenOptions (options : Dictionary Text) : Text :=
  options.entries.flatMap fun (k, v) => " --" ++ k ++ '=' :: Words.quote v

end ConversationFlow.Directive

/-! ## Steps -/

namespace ConversationFlow

namespace Check

def bound (c : CoverageCheck) : Text :=
  match c.comparison, c.threshold with
  | some comparison, some threshold => ' ' :: (comparison.sign ++ ' ' :: Decimal.ofFloat threshold)
  | _, _ => []

/-- The directive of a check. -/
def directive : Check → Text
  | .named kind options => "VERIFY " ++ Words.quote kind ++ Directive.writtenOptions options
  | .trace source target => "VERIFY-TRACE " ++ source ++ " -> " ++ target
  | .coverage c =>
    "VERIFY-COVERAGE" ++ (match c.metric with | some m => ' ' :: m | none => []) ++ bound c

end Check

namespace Step

/-- The text of a query and its options. -/
def queryText (query : Text) (options : Dictionary Text) : Text :=
  query ++ Directive.writtenOptions options

/-- The directive of a step, without its retries and blocks. -/
def directive : Step → Text
  | .prompt text => Directive.written "PROMPT" text
  | .run c _ _ => "RUN " ++ c.command
  | .checkpoint none => "CHECKPOINT"
  | .checkpoint (some name) => "CHECKPOINT " ++ name
  | .compact [] => "COMPACT"
  | .compact preserve => "COMPACT " ++ Text.join ", " preserve
  | .newConversation => "NEW-CONVERSATION"
  | .elide => "ELIDE"
  | .verify check _ _ => check.directive
  | .refcat refs => "REFCAT " ++ Words.join refs
  | .lsp query options => "LSP " ++ queryText query options
  | .helpInline topics _ => "HELP-INLINE " ++ Text.join [' '] topics
  | .custom name content => Directive.written name content
  | .consult text => Directive.written "CONSULT" text
  | .pause text => Directive.written "PAUSE" text
  | .merged m => Directive.written "PROMPT" m.content

/-- The directive of a command's retries, if it has any. -/
def retryLine : Step → Text
  | .run c _ _ =>
    if 0 < c.retries || c.retryPrompt.isSome then
      "RUN-RETRY " ++ Text.ofNat c.retries ++
        (match c.retryPrompt with | some p => ' ' :: Words.quote p | none => []) ++ ['\n']
    else []
  | _ => []

/-- A block between its opening and its END; an empty block is left out. -/
def blockText (opening body : Text) (steps : List Step) : Text :=
  if steps.isEmpty then [] else opening ++ '\n' :: (body ++ "END\n".toList)

mutual

/-- The lines of a step. -/
def written : Step → Text
  | .run c f s =>
    directive (.run c f s) ++ '\n' :: (retryLine (.run c f s)
      ++ blockText "ON-FAILURE" (writtenAll f) f ++ blockText "ON-SUCCESS" (writtenAll s) s)
  | .verify c f s =>
    directive (.verify c f s) ++ '\n' ::
      (blockText "ON-FAILURE" (writtenAll f) f ++ blockText "ON-SUCCESS" (writtenAll s) s)
  | s => directive s ++ ['\n']

/-- The lines of steps in order. -/
def writtenAll : List Step → Text
  | [] => []
  | s :: rest => written s ++ writtenAll rest

end

end Step

end ConversationFlow
