import ConversationFlow.Checkout.Basic
import ConversationFlow.CommandLine.Reader
import ConversationFlow.Config
import ConversationFlow.Rendered
import ConversationFlow.Step.Written

/-!
# The program

The program as a function: from its words and the files it finds to an exit code, what it
prints and the files it leaves. It checks conversations, renders one, or lists the steps of one.
-/

namespace ConversationFlow.CommandLine

/-- What the program meets when it starts. -/
structure Setting where
  files : FileSystem
  configHome : Path
  dataHome : Path
  now : Variables.Moment

/-- What the program leaves on its streams, and its exit code. -/
structure Outcome where
  code : Nat := 0
  output : Text := []
  errors : Text := []
deriving DecidableEq

/-- One outcome after another: the first code that is not zero counts. -/
instance : Append Outcome where
  append a b := ⟨if a.code = 0 then b.code else a.code, a.output ++ b.output, a.errors ++ b.errors⟩

namespace Outcome

/-- Lines on the output. -/
def ofLines (lines : List Text) : Outcome := { output := lines.flatMap (· ++ ['\n']) }

/-- The failure of what stands under a label, with its remedy. -/
def ofFailure (label : Text) (e : Failure) : Outcome where
  code := e.exitCode.value
  errors := "✗ " ++ label ++ ": " ++ e.message ++ "\n  " ++ e.remedy ++ "\n"

/-- An error of the program itself, with its cause. -/
def ofError (message cause : Text) : Outcome where
  code := 1
  errors := "Error: " ++ message ++ "\n\nCaused by:\n    " ++ cause ++ "\n"

/-- The outcome of a command line that gives nothing to do. -/
def ofHalt : Halt → Outcome
  | .help scope => { output := scope.helpText }
  | .version => ofLines [programName.toList ++ ' ' :: programVersion.toList]
  | .usage => { code := 2, errors := Scope.program.helpText }
  | .refused e =>
    { code := 2
      errors := "error: " ++ e.message ++ "\n\nFor more information, try '--help'.\n" }

end Outcome

/-! ## Checking -/

/-- The conversation of a file whose requirements are met and whose mandatory context exists. -/
def checked (fs : FileSystem) (path : Path) : Except Failure Conversation := do
  let c ← (Conversation.ofFile fs .empty path).mapError .compile
  let issues := c.settings.requirementIssues fs c.baseDir
  if !issues.isEmpty && !c.settings.isLenient then throw (.requirements issues)
  let scope : ContextScope := ⟨fs.cwd.path.within c.settings.cwd, some c.baseDir⟩
  let _ ← (scope.validate fs c.settings).mapError Failure.ofContext
  return c

/-- The result of checking a file. -/
def verdict (fs : FileSystem) (path : Path) : Outcome :=
  match checked fs path with
  | .error e => .ofFailure path.text e
  | .ok c =>
    .ofLines ["✓ " ++ path.text ++ ": " ++ Text.ofNat c.steps.length ++ " steps, "
      ++ Text.ofNat c.promptCount ++ " prompts, " ++ Text.ofNat c.settings.cycles ++ " cycle(s)"]

/-! ## Listing -/

/-- The line of a step in a list: its number, its kind and the first line of its directive. -/
def stepLine (depth number : Nat) (s : Step) : Text :=
  List.replicate (2 * depth) ' ' ++ Text.padLeft 3 (Text.ofNat number) ++ ". [" ++ s.typeName
    ++ "] " ++ (Text.lines s.directive).head?.getD []

/-- The line above a block. -/
def blockLine (depth : Nat) (title : Text) : Text := List.replicate (2 * depth + 5) ' ' ++ title

mutual

/-- The lines of a step and its blocks. -/
def stepLines (depth number : Nat) : Step → List Text
  | s@(.run _ f t) | s@(.verify _ f t) =>
    stepLine depth number s
      :: (if f.isEmpty then [] else blockLine depth "ON-FAILURE" :: stepsLines (depth + 3) 1 f)
      ++ (if t.isEmpty then [] else blockLine depth "ON-SUCCESS" :: stepsLines (depth + 3) 1 t)
  | s => [stepLine depth number s]

/-- The lines of steps, numbered from the given one. -/
def stepsLines (depth number : Nat) : List Step → List Text
  | [] => []
  | s :: rest => stepLines depth number s ++ stepsLines depth (number + 1) rest

end

/-- The list of the steps of a conversation, below its main settings. -/
def listing (fs : FileSystem) (path : Path) : Outcome :=
  match Conversation.ofFile fs .empty path with
  | .error e => .ofFailure path.text (.compile e)
  | .ok c =>
    .ofLines ([
      "Workflow: " ++ c.name,
      "  model: " ++ c.settings.model.getD "-",
      "  session-mode: " ++ c.settings.sessionMode.text,
      "  max-cycles: " ++ Text.ofNat c.settings.cycles,
      "  context: "
        ++ Text.ofNat (c.settings.context.length + c.settings.contextOptional.length),
      "Steps:"] ++ stepsLines 1 1 c.steps)

/-! ## Rendering -/

/-- The rendered form of a file. -/
def rendered (s : Setting) (file : Path) (plan : Bool) (cycles : Option Nat)
    (assignments : List (Text × Text)) (cwd : Option Path) : Except Failure Text := do
  let c ← (Conversation.ofFile s.files .empty file).mapError .compile
  let cwd := cwd.getD s.files.cwd.path
  let vars := (Variables.standard s.files s.now cwd).insertAll assignments
  let mode : RenderMode := if plan then .plan else .full
  let w ← (RenderedWorkflow.render s.files c cwd vars mode cycles).mapError Failure.ofContext
  return w.written

/-- Prints a rendered form, or writes it to a file. -/
def deliver (fs : FileSystem) (text : Text) : Option Path → Outcome × FileSystem
  | none => (.ofLines [text], fs)
  | some path =>
    match fs.writeText path text with
    | .ok fs => ({}, fs)
    | .error e => (.ofError ("Failed to write " ++ path.text) e.message, fs)

/-! ## The whole -/

/-- Does a job. -/
def Job.perform (s : Setting) : Job → Outcome × FileSystem
  | .validate files => ((files.map (verdict s.files)).foldl (· ++ ·) {}, s.files)
  | .inspect file => (listing s.files file, s.files)
  | .render file plan cycles assignments cwd output =>
    match rendered s file plan cycles assignments cwd with
    | .error e => (.ofFailure file.text e, s.files)
    | .ok text => deliver s.files text output

/-- The log levels, in any case. -/
def logLevels : List String := ["TRACE", "DEBUG", "INFO", "WARN", "WARNING", "ERROR"]

/-- A warning about a log level that does not exist. -/
def logWarning : Option Text → Outcome
  | none => {}
  | some level =>
    if logLevels.any fun l => l.toList = Text.upper level then {}
    else { errors := "Warning: Unknown log-level '" ++ level ++ "', defaulting to INFO\n" }

/-- Opens the log, with what there is to warn about; without a log nothing is done. -/
def openLog (fs : FileSystem) (dataHome : Path) (level : Option Text) :
    Outcome × Except Outcome FileSystem :=
  let directory := (dataHome.join "convofile").join "logs"
  let failed (cause : FileError) : Outcome := .ofError "Failed to setup logging" cause.message
  match fs.createDirectories directory with
  | .error e => ({}, .error (failed e))
  | .ok fs => (logWarning level, (fs.writeText (directory.join "cf.log") []).mapError failed)

/-- Runs a command line. -/
def perform (s : Setting) (line : CommandLine) : Outcome × FileSystem :=
  match Config.load s.files s.configHome line.config with
  | .error path =>
    (.ofError "Failed to load configuration" ("Failed to load config from " ++ path.text), s.files)
  | .ok config =>
    match openLog s.files s.dataHome (line.logLevel.or config.logLevel) with
    | (warning, .error failed) => (warning ++ failed, s.files)
    | (warning, .ok fs) =>
      let (outcome, fs) := line.job.perform { s with files := fs }
      (warning ++ outcome, fs)

/-- Runs the program. -/
def run (s : Setting) (words : List Text) : Outcome × FileSystem :=
  match read words with
  | .error h => (.ofHalt h, s.files)
  | .ok line => perform s line

end ConversationFlow.CommandLine
