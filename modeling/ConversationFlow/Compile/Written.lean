import ConversationFlow.Compile.Draft
import ConversationFlow.Step.Written

/-!
# Conversations as text

A compiled conversation is written as one file without includes: first the settings
that differ from their defaults, in a fixed order, then the steps, each with the
pauses and consultations that follow it.
-/

namespace ConversationFlow

namespace Settings

def entry (name : String) (value : Text) : Text :=
  Directive.written name.toList value ++ ['\n']

def optional (name : String) (value : Option Text) : Text :=
  match value with
  | some v => entry name v
  | none => []

def nonDefault (isDefault : Bool) (name : String) (value : Text) : Text :=
  if isDefault then [] else entry name value

def wordList (name : String) (ws : List Text) : Text :=
  nonDefault ws.isEmpty name (Words.join ws)

def percent (name : String) (value : Option Float) : Text :=
  optional name (value.map Percent.text)

def each (name : String) (values : List Text) : Text := values.flatMap (entry name)

/-- The directives of the settings. -/
def written (s : Settings) : Text :=
  optional "MODEL" s.model ++
  optional "ADAPTER" s.adapter ++
  optional "MODE" s.mode ++
  nonDefault (s.sessionMode == .accumulate) "SESSION-MODE" s.sessionMode.text ++
  optional "MAX-CYCLES" (s.maxCycles.map Text.ofNat) ++
  optional "CWD" s.cwd ++
  wordList "CONTEXT" s.context ++
  wordList "CONTEXT-OPTIONAL" s.contextOptional ++
  wordList "CONTEXT-EXCLUDE" s.contextExclude ++
  wordList "ALLOW-FILES" s.allowFiles ++
  wordList "DENY-FILES" s.denyFiles ++
  wordList "ALLOW-DIR" s.allowDirs ++
  wordList "DENY-DIR" s.denyDirs ++
  wordList "REQUIRE" s.requirements ++
  wordList "MODEL-REQUIRES" s.modelRequirements ++
  wordList "MODEL-PREFERS" s.modelPreferences ++
  percent "CONTEXT-LIMIT" s.contextLimit ++
  nonDefault (s.onContextLimit == .compact) "ON-CONTEXT-LIMIT" s.onContextLimit.text ++
  optional "ON-CONTEXT-LIMIT-PROMPT" s.onContextLimitPrompt ++
  each "PROLOGUE" s.prologues ++
  each "EPILOGUE" s.epilogues ++
  each "HEADER" s.headers ++
  each "FOOTER" s.footers ++
  nonDefault s.helpTopics.isEmpty "HELP" (Text.join [' '] s.helpTopics) ++
  percent "COMPACTION-MIN" s.compactionMin ++
  percent "COMPACTION-THRESHOLD" s.compactionThreshold ++
  percent "COMPACTION-MAX" s.compactionMax ++
  nonDefault s.compactPreserve.isEmpty "COMPACT-PRESERVE" (Text.join ", " s.compactPreserve) ++
  optional "COMPACT-SUMMARY" s.compactSummary ++
  nonDefault (s.validationMode == .strict) "VALIDATION-MODE" s.validationMode.text ++
  optional "MODEL-POLICY" s.modelPolicy ++
  optional "CONSULT-TIMEOUT" (s.consultTimeout.map Duration.text) ++
  nonDefault (!s.run.allowShell) "ALLOW-SHELL" [] ++
  nonDefault (s.run.onError == .stop) "RUN-ON-ERROR" s.run.onError.text ++
  nonDefault (s.run.output == .onError) "RUN-OUTPUT" s.run.output.text ++
  optional "RUN-OUTPUT-LIMIT" (s.run.outputLimit.map Text.ofNat) ++
  nonDefault (s.run.timeout == RunSettings.defaultTimeout) "RUN-TIMEOUT" s.run.timeout.text ++
  optional "RUN-CWD" s.run.cwd ++
  wordList "RUN-ENV" (s.run.env.entries.map fun (k, v) => k ++ '=' :: v) ++
  nonDefault (s.verify.onError == .stop) "VERIFY-ON-ERROR" s.verify.onError.text ++
  nonDefault (s.verify.output == .onError) "VERIFY-OUTPUT" s.verify.output.text ++
  optional "VERIFY-LIMIT" (s.verify.limit.map Text.ofNat) ++
  optional "OUTPUT-FORMAT" s.outputFormat ++
  optional "OUTPUT-FILE" s.outputFile ++
  optional "OUTPUT-DIR" s.outputDir ++
  optional "CONTINUATION-PROMPT" s.continuationPrompt ++
  optional "SESSION-NAME" s.sessionName ++
  optional "EVENT-LOG" s.eventLog ++
  optional "INFINITE-SESSIONS" (s.infiniteSessions.map fun b => if b then "true" else "false")

def pointsOf (name : String) (points : List HumanPoint) (step : Option Nat) : Text :=
  (points.filter fun p => p.afterStep == step).flatMap fun p => entry name p.message

/-- The pauses, then the consultations, after a step. -/
def writtenPoints (s : Settings) (step : Option Nat) : Text :=
  pointsOf "PAUSE" s.pausePoints step ++ pointsOf "CONSULT" s.consultPoints step

def stepsFrom (s : Settings) : Nat → List Step → Text
  | _, [] => []
  | i, step :: rest => step.written ++ s.writtenPoints (some i) ++ stepsFrom s (i + 1) rest

/-- The file of settings and steps. -/
def writtenWith (s : Settings) (steps : List Step) : Text :=
  let settings := s.written
  settings ++ (if settings.isEmpty || steps.isEmpty then [] else ['\n'])
    ++ s.writtenPoints none ++ stepsFrom s 0 steps

end Settings

/-- The file of a compiled conversation. -/
def Compiled.written (c : Compiled) : Text := c.settings.writtenWith c.steps

end ConversationFlow
