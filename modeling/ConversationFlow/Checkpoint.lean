import ConversationFlow.Failure
import ConversationFlow.Json.Printer
import ConversationFlow.Timestamp
import ConversationFlow.Value.Basic

/-!
# Checkpoints

A checkpoint records where a run stood. It is written as a file of its own, whose
name tells the workflow, the checkpoint and its identifier in lower-case letters,
digits and hyphens.
-/

namespace ConversationFlow

/-- A text as part of a file name: its runs of ASCII letters and digits in lower case, with
hyphens between them. -/
def slug (t : Text) : Text :=
  Text.join ['-'] ((t.splitOnP fun c => !Text.isAlphanumeric c).filterMap fun run =>
    if run.isEmpty then none else some (Text.lowerAscii run))

/-- Where a run stood. The cycle is counted from 1 and the step from 0. -/
structure Checkpoint where
  id : Text
  name : Option Text
  workflow : Text
  cycle : Nat
  step : Nat
  sessionId : Option Text := none
  turns : Nat := 0
  usedTokens : Nat := 0
  lastResponse : Option Text := none
  createdAt : Text
deriving DecidableEq

namespace Checkpoint

/-- What stands for the checkpoint in its file name: its name, or its place if that says
nothing. -/
def label (c : Checkpoint) : Text :=
  match c.name.map slug with
  | some (x :: t) => x :: t
  | _ => "cycle" ++ Text.ofNat c.cycle ++ "-step" ++ Text.ofNat (c.step + 1)

def fileName (c : Checkpoint) : Text :=
  slug c.workflow ++ "-" ++ c.label ++ "-" ++ c.id ++ ".json"

def json (c : Checkpoint) : Json := .obj [
  Json.field "id" (.str c.id),
  Json.field "name" (Json.ofOption .str c.name),
  Json.field "workflow" (.str c.workflow),
  Json.field "cycle" (.nat c.cycle),
  Json.field "step" (.nat c.step),
  Json.field "session_id" (Json.ofOption .str c.sessionId),
  Json.field "turns" (.nat c.turns),
  Json.field "used_tokens" (.nat c.usedTokens),
  Json.field "last_response" (Json.ofOption .str c.lastResponse),
  Json.field "created_at" (.str c.createdAt)]

/-- Writes the checkpoint into a directory, which is created if it is missing. -/
def write (c : Checkpoint) (fs : FileSystem) (dir : Path) : Except Failure (FileSystem × Path) :=
  let path := dir.join ⟨c.fileName⟩
  match fs.createDirectories dir with
  | .error cause => .error (.io dir cause)
  | .ok made =>
    match made.writeText path c.json.pretty with
    | .error cause => .error (.io path cause)
    | .ok written => .ok (written, path)

private def fieldNames : List String := [
  "id", "name", "workflow", "cycle", "step", "session_id", "turns", "used_tokens",
  "last_response", "created_at"]

/-- The checkpoint of an object that has no field twice, or of a list of its fields. -/
def ofJson? (j : Json) : Option Checkpoint := do
  let j ← j.record? fieldNames fieldNames.length
  let names := (← j.fields?).map (·.1)
  if fieldNames.any fun name => 1 < names.count name.toList then none
  else
    let size := Json.nat? (wordSize 64 - 1)
    return {
      id := ← j.required "id" Json.text?
      name := ← j.optional "name" Json.text?
      workflow := ← j.required "workflow" Json.text?
      cycle := ← j.required "cycle" (Json.nat? (wordSize 32 - 1))
      step := ← j.required "step" size
      sessionId := ← j.optional "session_id" Json.text?
      turns := ← j.required "turns" size
      usedTokens := ← j.required "used_tokens" size
      lastResponse := ← j.optional "last_response" Json.text?
      createdAt := ← j.required "created_at" fun v =>
        v.text?.filter fun t => Timestamp.isValid t }

/-- The checkpoint of a file. -/
def load (fs : FileSystem) (path : Path) : Except Failure Checkpoint :=
  match fs.readText path with
  | .error cause => .error (.io path cause)
  | .ok raw =>
    match (Json.readFields? fieldNames raw).bind ofJson? with
    | some c => .ok c
    | none => .error (.io path (.other "not a checkpoint"))

end Checkpoint

end ConversationFlow
