import ConversationFlow.Run.Options
import ConversationFlow.Yaml.Basic

/-!
# Configuration

The defaults of a user or a project, read from a YAML file: the one that is named, or
the first that can be read of the project's and the user's.
-/

namespace ConversationFlow

/-- A configuration. -/
structure Config where
  logLevel : Option Text := none
  maxTokens : Nat := 128000
  detector : DetectorSettings := {}
  timeoutMillis : Option Nat := none
  concurrency : Nat := 1
  continuesOnError : Bool := false
  progressFile : Text := "convofile-progress.md"
deriving DecidableEq

namespace Config

private def detectorOf? (v : Yaml) : Option DetectorSettings := do
  let es ← v.entries?
  return {
    identicalThreshold := ← Yaml.fieldOr es "identical-threshold" 2 Yaml.nat?
    minResponseLength := ← Yaml.fieldOr es "min-response-length" 100 Yaml.nat? }

private def maxTokensOf? (v : Yaml) : Option Nat := do
  Yaml.fieldOr (← v.entries?) "max-tokens" 128000 Yaml.nat?

private def timeoutOf? (v : Yaml) : Option (Option Nat) := do
  Yaml.fieldOr (← v.entries?) "timeout-ms" none (Yaml.orNull Yaml.nat?)

private def batchOf? (v : Yaml) : Option (Nat × Bool × Text) := do
  let es ← v.entries?
  return (← Yaml.fieldOr es "concurrency" 1 Yaml.nat?,
    ← Yaml.fieldOr es "continue-on-error" false Yaml.bool?,
    ← Yaml.fieldOr es "progress-file" "convofile-progress.md".toList Yaml.text?)

/-- The configuration of a value. Every section and every field may be missing. -/
def ofYaml? (v : Yaml) : Option Config := do
  let es ← v.entries?
  let (concurrency, continuesOnError, progressFile) ←
    Yaml.fieldOr es "batch" (1, false, "convofile-progress.md".toList) batchOf?
  return {
    logLevel := ← Yaml.fieldOr es "log-level" none (Yaml.orNull Yaml.text?)
    maxTokens := ← Yaml.fieldOr es "context" 128000 maxTokensOf?
    detector := ← Yaml.fieldOr es "detector" {} detectorOf?
    timeoutMillis := ← Yaml.fieldOr es "run" none timeoutOf?
    concurrency, continuesOnError, progressFile }

/-- The configuration of a file. -/
def ofFile? (fs : FileSystem) (path : Path) : Option Config :=
  (fs.readText path).toOption.bind fun t => (Yaml.read? t).bind ofYaml?

/-- The name of a project's configuration. -/
def projectFile : Path := ".convofile.yml"

/-- Where a user's configuration lies below the directory of all configurations. -/
def userFile (configHome : Path) : Path :=
  (configHome.join "convofile").join "convofile.yml"

/-- The configuration of the file that is named, which must be readable; without one, of the
first readable file of the project and the user, or the defaults. -/
def load (fs : FileSystem) (configHome : Path) (named : Option Path) : Except Path Config :=
  match named with
  | some path =>
    match ofFile? fs path with
    | some c => .ok c
    | none => .error path
  | none =>
    .ok (([projectFile, userFile configHome].findSome? (ofFile? fs)).getD {})

/-- The options of a run in a directory. -/
def runOptions (c : Config) (cwd : Path) : RunOptions where
  cwd
  maxTokens := c.maxTokens
  detector := c.detector
  commandTimeout := c.timeoutMillis.map Duration.ofMillis

/-- The options of a batch. -/
def batchOptions (c : Config) : BatchOptions where
  concurrency := max 1 c.concurrency
  continuesOnError := c.continuesOnError
  progressFile := some ⟨c.progressFile⟩

end Config

end ConversationFlow
