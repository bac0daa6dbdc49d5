import ConversationFlow.Json.Basic
import ConversationFlow.Step.Basic

/-!
# Steps as JSON

A step is an object whose `type` names its kind, with the fields of that kind beside it. A reader
also takes a list of the kind and the values of the fields. What has a default may be left out.
-/

namespace ConversationFlow

/-- A dictionary of texts as an object. -/
def Dictionary.json (d : Dictionary Text) : Json := .obj (d.entries.map fun (k, v) => (k, .str v))

/-- The dictionary of an object of texts, where the last field of each name counts. -/
def Dictionary.ofJson? (j : Json) : Option (Dictionary Text) :=
  j.fields?.bind fun fields =>
    ((Dictionary.ofList fields).entries.mapM fun f : Text × Json =>
      f.2.text?.map (f.1, ·)).map Dictionary.ofList

private def pairJson (p : Text × Text) : Json := .arr [.str p.1, .str p.2]

def CoverageCheck.json (c : CoverageCheck) : Json := .obj [
  Json.field "metric" (Json.ofOption .str c.metric),
  Json.field "op" (Json.ofOption (fun o => .str o.sign) c.comparison),
  Json.field "threshold" (Json.ofOption .real c.threshold)]

def CoverageCheck.ofJson? (j : Json) : Option CoverageCheck := do
  let j ← j.record? ["metric", "op", "threshold"] 3
  return {
    metric := ← j.optional "metric" Json.text?
    comparison := ← j.optional "op" fun v => (v.name? true).bind Comparison.ofSign?
    threshold := ← j.optional "threshold" Json.float? }

namespace MergedPrompt

private def fields (m : MergedPrompt) : List (Text × Json) := [
  Json.field "content" (.str m.content),
  Json.field "run_commands" (Json.texts m.runCommands),
  Json.field "verify_commands" (Json.texts m.verifyCommands),
  Json.field "refcat_commands" (Json.texts m.refcatCommands),
  Json.field "lsp_commands" (Json.texts m.lspCommands),
  Json.field "help_commands" (Json.texts m.helpCommands),
  Json.field "consult_commands" (Json.texts m.consultCommands),
  Json.field "custom_directives" (.arr (m.customDirectives.map pairJson))]

def json (m : MergedPrompt) : Json := .obj m.fields

private def ofJson? (j : Json) : Option MergedPrompt := do
  return {
    content := ← j.required "content" Json.text?
    runCommands := ← j.required "run_commands" Json.texts?
    verifyCommands := ← j.required "verify_commands" Json.texts?
    refcatCommands := ← j.required "refcat_commands" Json.texts?
    lspCommands := ← j.required "lsp_commands" Json.texts?
    helpCommands := ← j.required "help_commands" Json.texts?
    consultCommands := ← j.required "consult_commands" Json.texts?
    customDirectives := ← j.required "custom_directives" (Json.list? Json.textPair?) }

end MergedPrompt

namespace Step

private def tagged (s : Step) (fields : List (Text × Json)) : Json :=
  .obj (Json.field "type" (.str s.typeName) :: fields)

private def checkFields : Check → List (Text × Json)
  | .named kind options => [Json.field "kind" (.str kind), Json.field "options" options.json]
  | .trace source target => [Json.field "from" (.str source), Json.field "to" (.str target)]
  | .coverage c => [Json.field "check" c.json]

mutual

def json : Step → Json
  | .prompt t => tagged (.prompt t) [Json.field "text" (.str t)]
  | .run c f s => tagged (.run c f s) [
      Json.field "command" (.str c.command),
      Json.field "retry_count" (.nat c.retries),
      Json.field "retry_prompt" (Json.ofOption .str c.retryPrompt),
      Json.field "on_failure" (.arr (jsonAll f)),
      Json.field "on_success" (.arr (jsonAll s))]
  | .checkpoint n => tagged (.checkpoint n) [Json.field "name" (Json.ofOption .str n)]
  | .compact p => tagged (.compact p) [Json.field "preserve" (Json.texts p)]
  | .newConversation => tagged .newConversation []
  | .elide => tagged .elide []
  | .verify c f s => tagged (.verify c f s) (checkFields c ++ [
      Json.field "on_failure" (.arr (jsonAll f)),
      Json.field "on_success" (.arr (jsonAll s))])
  | .refcat r => tagged (.refcat r) [Json.field "refs" (Json.texts r)]
  | .lsp q o => tagged (.lsp q o) [Json.field "query" (.str q), Json.field "options" o.json]
  | .helpInline t m => tagged (.helpInline t m) [
      Json.field "topics" (Json.texts t), Json.field "merge_with_next" (.bool m)]
  | .custom n c => tagged (.custom n c) [
      Json.field "name" (.str n), Json.field "content" (.str c)]
  | .consult t => tagged (.consult t) [Json.field "text" (.str t)]
  | .pause t => tagged (.pause t) [Json.field "text" (.str t)]
  | .merged m => tagged (.merged m) (MergedPrompt.fields m)

def jsonAll : List Step → List Json
  | [] => []
  | s :: rest => json s :: jsonAll rest

end

/-- The kinds of steps, each with its fields and the number of those that a list of their values
holds at least. -/
private def kinds : List (String × List String × Nat) := [
  ("prompt", ["text"], 1),
  ("run", ["command", "retry_count", "retry_prompt", "on_failure", "on_success"], 1),
  ("checkpoint", ["name"], 1),
  ("compact", ["preserve"], 1),
  ("new_conversation", [], 0),
  ("elide", [], 0),
  ("verify", ["kind", "options", "on_failure", "on_success"], 1),
  ("verify_trace", ["from", "to", "on_failure", "on_success"], 2),
  ("verify_coverage", ["check", "on_failure", "on_success"], 1),
  ("refcat", ["refs"], 1),
  ("lsp", ["query", "options"], 2),
  ("help_inline", ["topics", "merge_with_next"], 2),
  ("custom", ["name", "content"], 2),
  ("consult", ["text"], 1),
  ("pause", ["text"], 1),
  ("merged_prompt", ["content", "run_commands", "verify_commands", "refcat_commands",
    "lsp_commands", "help_commands", "consult_commands", "custom_directives"], 8)]

/-- A kind by its name; inside of a block also by its place among the kinds. -/
private def kind? (inBlock : Bool) (tag : Json) : Option (String × List String × Nat) :=
  match tag with
  | .str t => kinds.find? fun k => k.1.toList = t
  | .int (.ofNat n) => if inBlock then kinds[n]? else none
  | _ => none

/-- The step of an object or a list, down to `levels` levels of blocks. -/
private def ofJsonWithin (levels : Nat) (inBlock : Bool) (j : Json) : Option Step :=
  match levels with
  | 0 => none
  | levels + 1 => do
    let (tag, j) ← j.tagged? "type"
    let (kind, names, least) ← kind? inBlock tag
    let j ← j.record? names least
    let block (name : String) : Option (List Step) :=
      j.fieldOr name [] (Json.list? (ofJsonWithin levels true))
    match kind with
    | "prompt" => return .prompt (← j.required "text" Json.text?)
    | "run" =>
      return .run {
        command := ← j.required "command" Json.text?
        retries := ← j.fieldOr "retry_count" 0 (Json.nat? 4294967295)
        retryPrompt := ← j.optional "retry_prompt" Json.text? }
        (← block "on_failure") (← block "on_success")
    | "checkpoint" => return .checkpoint (← j.optional "name" Json.text?)
    | "compact" => return .compact (← j.required "preserve" Json.texts?)
    | "new_conversation" => return .newConversation
    | "elide" => return .elide
    | "verify" =>
      return .verify
        (.named (← j.required "kind" Json.text?)
          (← j.fieldOr "options" .empty Dictionary.ofJson?))
        (← block "on_failure") (← block "on_success")
    | "verify_trace" =>
      return .verify
        (.trace (← j.required "from" Json.text?) (← j.required "to" Json.text?))
        (← block "on_failure") (← block "on_success")
    | "verify_coverage" =>
      return .verify (.coverage (← j.required "check" CoverageCheck.ofJson?))
        (← block "on_failure") (← block "on_success")
    | "refcat" => return .refcat (← j.required "refs" Json.texts?)
    | "lsp" =>
      return .lsp (← j.required "query" Json.text?) (← j.required "options" Dictionary.ofJson?)
    | "help_inline" =>
      return .helpInline (← j.required "topics" Json.texts?)
        (← j.required "merge_with_next" Json.bool?)
    | "custom" =>
      return .custom (← j.required "name" Json.text?) (← j.required "content" Json.text?)
    | "consult" => return .consult (← j.required "text" Json.text?)
    | "pause" => return .pause (← j.required "text" Json.text?)
    | "merged_prompt" => return .merged (← MergedPrompt.ofJson? j)
    | _ => none

/-- The step that an object describes, or a list of its kind and the values of its fields. -/
def ofJson? (j : Json) : Option Step := ofJsonWithin (j.depth + 1) false j

end Step

end ConversationFlow
