import ConversationFlow.Decimal
import ConversationFlow.Failure
import ConversationFlow.Settings
import ConversationFlow.Value.Basic

/-!
# Reports

What a run produced, complete or not: its outcome, the turns that were sent, the
checkpoints and the warnings. A report is written as JSON or as a transcript.
-/

namespace ConversationFlow

/-- How a run ended that did not fail. -/
inductive RunOutcome where
  | completed
  | loopDetected (verdict : Verdict)
  | stopRequested (verdict : Verdict)
  | paused (afterStep : Option Nat) (message : Text) (consult : Bool)
  | contextLimit (usage : Float)

/-- One turn: the prompt that was sent and the response to it. -/
structure TurnRecord where
  cycle : Nat
  step : Nat
  prompt : Text
  response : Text
deriving DecidableEq

/-- What a run produced. -/
structure RunReport where
  workflow : Text
  cyclesCompleted : Nat := 0
  outcome : RunOutcome := .completed
  turns : Nat := 0
  checkpoints : List Path := []
  responses : List TurnRecord := []
  warnings : List Text := []

namespace RunOutcome

def isCompleted : RunOutcome → Bool
  | .completed => true
  | _ => false

/-- Of the outcomes, only a loop is signalled. -/
def exitCode : RunOutcome → ExitCode
  | .loopDetected _ => .loopDetected
  | _ => .ok

def summary : RunOutcome → Text
  | .completed => "completed"
  | .loopDetected v =>
    "loop detected on cycle " ++ Text.ofNat v.cycle ++ ": " ++ v.reason.text
      ++ " (" ++ v.detail ++ ")"
  | .stopRequested v =>
    "stop requested on cycle " ++ Text.ofNat v.cycle ++ " (needs review): "
      ++ (v.stopRequest.map (·.reason)).getD v.detail
  | .paused _ m consult => (if consult then "consult" else "paused").toList ++ ": " ++ m
  | .contextLimit usage =>
    "stopped at context limit (" ++ Decimal.wholeText (usage * 100.0) ++ "% used)"

end RunOutcome

namespace RunReport

def lastResponse? (r : RunReport) : Option Text := r.responses.getLast?.map (·.response)

private def turnSection (t : TurnRecord) : Text :=
  "\n## Cycle " ++ Text.ofNat t.cycle ++ " - step " ++ Text.ofNat (t.step + 1) ++ "\n\n"
    ++ Text.trimEnd t.response ++ "\n"

private def warningSection (warnings : List Text) : Text :=
  if warnings.isEmpty then []
  else "\n## Warnings\n\n".toList ++ warnings.flatMap fun w => "- ".toList ++ w ++ ['\n']

/-- The transcript of the run. -/
def markdown (r : RunReport) : Text :=
  "# " ++ r.workflow ++ "\n\n**Outcome:** " ++ r.outcome.summary
    ++ "\n**Cycles completed:** " ++ Text.ofNat r.cyclesCompleted
    ++ "  \n**Turns:** " ++ Text.ofNat r.turns ++ "\n"
    ++ r.responses.flatMap turnSection
    ++ warningSection r.warnings

end RunReport

/-! ## Reports as JSON

A report and its outcome as objects. An outcome names its kind. A reader takes a list of the values
of its fields for each of them.
-/

namespace DetectorSettings

/-- The settings of an object or a list, which may leave out any. -/
def ofJson? (j : Json) : Option DetectorSettings := do
  let j ← j.record? ["identical-threshold", "min-response-length"] 0
  let size := Json.nat? (wordSize 64 - 1)
  return {
    identicalThreshold := ← j.fieldOr "identical-threshold" 2 size
    minResponseLength := ← j.fieldOr "min-response-length" 100 size }

end DetectorSettings

namespace Verdict

def json (v : Verdict) : Json := .obj [
  Json.field "reason" (.str v.reason.text),
  Json.field "detail" (.str v.detail),
  Json.field "cycle" (.nat v.cycle),
  Json.field "stop_request" (Json.ofOption StopRequest.json v.stopRequest)]

def ofJson? (j : Json) : Option Verdict := do
  let j ← j.record? ["reason", "detail", "cycle", "stop_request"] 4
  return {
    reason := ← j.required "reason" fun r => (r.name? true).bind LoopReason.read?
    detail := ← j.required "detail" Json.text?
    cycle := ← j.required "cycle" (Json.nat? 4294967295)
    stopRequest := ← j.optional "stop_request" StopRequest.ofJson? }

end Verdict

namespace RunOutcome

private def tagged (kind : String) (fields : List (Text × Json)) : Json :=
  .obj (Json.field "kind" (Json.lit kind) :: fields)

def json : RunOutcome → Json
  | .completed => tagged "completed" []
  | .loopDetected v => tagged "loop_detected" [Json.field "verdict" v.json]
  | .stopRequested v => tagged "stop_requested" [Json.field "verdict" v.json]
  | .paused afterStep message consult => tagged "paused" [
      Json.field "after_step" (Json.ofOption .nat afterStep),
      Json.field "message" (.str message),
      Json.field "consult" (.bool consult)]
  | .contextLimit usage => tagged "context_limit" [Json.field "usage_percent" (.real usage)]

/-- The kinds of outcomes, each with its fields. -/
private def kinds : List (String × List String) := [
  ("completed", []),
  ("loop_detected", ["verdict"]),
  ("stop_requested", ["verdict"]),
  ("paused", ["after_step", "message", "consult"]),
  ("context_limit", ["usage_percent"])]

def ofJson? (j : Json) : Option RunOutcome := do
  let (tag, j) ← j.tagged? "kind"
  let (kind, names) ← tag.text?.bind fun t => kinds.find? fun k => k.1.toList = t
  let j ← j.record? names names.length
  match kind with
  | "completed" => return .completed
  | "loop_detected" => return .loopDetected (← j.required "verdict" Verdict.ofJson?)
  | "stop_requested" => return .stopRequested (← j.required "verdict" Verdict.ofJson?)
  | "paused" =>
    return .paused (← j.optional "after_step" (Json.nat? (wordSize 64 - 1)))
      (← j.required "message" Json.text?) (← j.required "consult" Json.bool?)
  | "context_limit" => return .contextLimit (← j.required "usage_percent" Json.float?)
  | _ => none

end RunOutcome

namespace TurnRecord

def json (t : TurnRecord) : Json := .obj [
  Json.field "cycle" (.nat t.cycle),
  Json.field "step" (.nat t.step),
  Json.field "prompt" (.str t.prompt),
  Json.field "response" (.str t.response)]

def ofJson? (j : Json) : Option TurnRecord := do
  let j ← j.record? ["cycle", "step", "prompt", "response"] 4
  return {
    cycle := ← j.required "cycle" (Json.nat? 4294967295)
    step := ← j.required "step" (Json.nat? (wordSize 64 - 1))
    prompt := ← j.required "prompt" Json.text?
    response := ← j.required "response" Json.text? }

end TurnRecord

namespace RunReport

def json (r : RunReport) : Json := .obj [
  Json.field "workflow" (.str r.workflow),
  Json.field "cycles_completed" (.nat r.cyclesCompleted),
  Json.field "outcome" r.outcome.json,
  Json.field "turns" (.nat r.turns),
  Json.field "checkpoints" (Json.texts (r.checkpoints.map (·.text))),
  Json.field "responses" (.arr (r.responses.map TurnRecord.json)),
  Json.field "warnings" (Json.texts r.warnings)]

private def fieldNames : List String :=
  ["workflow", "cycles_completed", "outcome", "turns", "checkpoints", "responses", "warnings"]

def ofJson? (j : Json) : Option RunReport := do
  let j ← j.record? fieldNames fieldNames.length
  return {
    workflow := ← j.required "workflow" Json.text?
    cyclesCompleted := ← j.required "cycles_completed" (Json.nat? 4294967295)
    outcome := ← j.required "outcome" RunOutcome.ofJson?
    turns := ← j.required "turns" (Json.nat? (wordSize 64 - 1))
    checkpoints := (← j.required "checkpoints" Json.texts?).map Path.mk
    responses := ← j.required "responses" (Json.list? TurnRecord.ofJson?)
    warnings := ← j.required "warnings" Json.texts? }

end RunReport

end ConversationFlow
