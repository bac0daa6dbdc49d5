import ConversationFlow.Text.Case
import ConversationFlow.Text.Dictionary

/-!
# Keywords

The directives that a conversation file may use: the built-in ones, and those that a caller adds.
-/

namespace ConversationFlow

/-! ## Built-in directives

The directives that every conversation file may use. `Keyword.all` fixes their
order; a keyword is known by its exact spelling in upper case. -/

/-- A built-in directive. -/
inductive Keyword where
  | model | adapter | mode | sessionMode | maxCycles | cwd | context | contextOptional
  | contextExclude | contextLimit | onContextLimit | onContextLimitPrompt | allowFiles
  | denyFiles | allowDir | denyDir | prologue | epilogue | header | footer | help
  | helpInline | prompt | run | runRetry | runOnError | runOutput | runOutputLimit
  | runTimeout | runCwd | runEnv | allowShell | onFailure | onSuccess | endBlock
  | checkpoint | compact | compactPreserve | compactSummary | compactionMin
  | compactionThreshold | compactionMax | newConversation | elide | verify | verifyTrace
  | verifyCoverage | verifyOnError | verifyOutput | verifyLimit | refcat | lsp
  | includeFile | pause | consult | consultTimeout | validationMode | require
  | modelRequires | modelPrefers | modelPolicy | outputFormat | outputFile | outputDir
  | continuationPrompt | sessionName | eventLog | infiniteSessions
deriving DecidableEq

namespace Keyword

/-- The keyword as it is written in a file. -/
def spelling : Keyword → String
  | .model => "MODEL"
  | .adapter => "ADAPTER"
  | .mode => "MODE"
  | .sessionMode => "SESSION-MODE"
  | .maxCycles => "MAX-CYCLES"
  | .cwd => "CWD"
  | .context => "CONTEXT"
  | .contextOptional => "CONTEXT-OPTIONAL"
  | .contextExclude => "CONTEXT-EXCLUDE"
  | .contextLimit => "CONTEXT-LIMIT"
  | .onContextLimit => "ON-CONTEXT-LIMIT"
  | .onContextLimitPrompt => "ON-CONTEXT-LIMIT-PROMPT"
  | .allowFiles => "ALLOW-FILES"
  | .denyFiles => "DENY-FILES"
  | .allowDir => "ALLOW-DIR"
  | .denyDir => "DENY-DIR"
  | .prologue => "PROLOGUE"
  | .epilogue => "EPILOGUE"
  | .header => "HEADER"
  | .footer => "FOOTER"
  | .help => "HELP"
  | .helpInline => "HELP-INLINE"
  | .prompt => "PROMPT"
  | .run => "RUN"
  | .runRetry => "RUN-RETRY"
  | .runOnError => "RUN-ON-ERROR"
  | .runOutput => "RUN-OUTPUT"
  | .runOutputLimit => "RUN-OUTPUT-LIMIT"
  | .runTimeout => "RUN-TIMEOUT"
  | .runCwd => "RUN-CWD"
  | .runEnv => "RUN-ENV"
  | .allowShell => "ALLOW-SHELL"
  | .onFailure => "ON-FAILURE"
  | .onSuccess => "ON-SUCCESS"
  | .endBlock => "END"
  | .checkpoint => "CHECKPOINT"
  | .compact => "COMPACT"
  | .compactPreserve => "COMPACT-PRESERVE"
  | .compactSummary => "COMPACT-SUMMARY"
  | .compactionMin => "COMPACTION-MIN"
  | .compactionThreshold => "COMPACTION-THRESHOLD"
  | .compactionMax => "COMPACTION-MAX"
  | .newConversation => "NEW-CONVERSATION"
  | .elide => "ELIDE"
  | .verify => "VERIFY"
  | .verifyTrace => "VERIFY-TRACE"
  | .verifyCoverage => "VERIFY-COVERAGE"
  | .verifyOnError => "VERIFY-ON-ERROR"
  | .verifyOutput => "VERIFY-OUTPUT"
  | .verifyLimit => "VERIFY-LIMIT"
  | .refcat => "REFCAT"
  | .lsp => "LSP"
  | .includeFile => "INCLUDE"
  | .pause => "PAUSE"
  | .consult => "CONSULT"
  | .consultTimeout => "CONSULT-TIMEOUT"
  | .validationMode => "VALIDATION-MODE"
  | .require => "REQUIRE"
  | .modelRequires => "MODEL-REQUIRES"
  | .modelPrefers => "MODEL-PREFERS"
  | .modelPolicy => "MODEL-POLICY"
  | .outputFormat => "OUTPUT-FORMAT"
  | .outputFile => "OUTPUT-FILE"
  | .outputDir => "OUTPUT-DIR"
  | .continuationPrompt => "CONTINUATION-PROMPT"
  | .sessionName => "SESSION-NAME"
  | .eventLog => "EVENT-LOG"
  | .infiniteSessions => "INFINITE-SESSIONS"

/-- The built-in keywords in their fixed order. -/
def all : List Keyword := [
  .model, .adapter, .mode, .sessionMode, .maxCycles, .cwd, .context, .contextOptional,
  .contextExclude, .contextLimit, .onContextLimit, .onContextLimitPrompt, .allowFiles,
  .denyFiles, .allowDir, .denyDir, .prologue, .epilogue, .header, .footer, .help, .helpInline,
  .prompt, .run, .runRetry, .runOnError, .runOutput, .runOutputLimit, .runTimeout, .runCwd,
  .runEnv, .allowShell, .onFailure, .onSuccess, .endBlock, .checkpoint, .compact,
  .compactPreserve, .compactSummary, .compactionMin, .compactionThreshold, .compactionMax,
  .newConversation, .elide, .verify, .verifyTrace, .verifyCoverage, .verifyOnError,
  .verifyOutput, .verifyLimit, .refcat, .lsp, .includeFile, .pause, .consult, .consultTimeout,
  .validationMode, .require, .modelRequires, .modelPrefers, .modelPolicy, .outputFormat,
  .outputFile, .outputDir, .continuationPrompt, .sessionName, .eventLog, .infiniteSessions]

def name (k : Keyword) : Text := k.spelling.toList

/-- The keyword of a spelling. -/
def ofName? (t : Text) : Option Keyword := all.find? fun k => k.name == t

/-- Whether the lines after the keyword belong to its value. -/
def takesText : Keyword → Bool
  | .prompt | .prologue | .epilogue | .header | .footer | .consult
  | .pause | .compactSummary | .continuationPrompt | .onContextLimitPrompt => true
  | _ => false

end Keyword

/-! ## Custom directives

A registry adds directives to the built-in ones. Its names are in upper case, so
that a look-up does not depend on case. -/

/-- A directive that a caller adds. `multiline` says that the lines after it are its value. -/
structure CustomDirective where
  name : Text
  description : Text
  multiline : Bool
deriving DecidableEq

/-- A custom directive under the upper-case form of a name. -/
def CustomDirective.named (name description : Text) (multiline : Bool) : CustomDirective :=
  ⟨Text.upper name, description, multiline⟩

/-- The custom directives in force, by name. -/
structure Registry where
  directives : Dictionary CustomDirective
deriving DecidableEq

namespace Registry

def empty : Registry := ⟨.empty⟩

/-- The entry of a name, whatever its case. -/
def get? (r : Registry) (name : Text) : Option CustomDirective :=
  r.directives.get? (Text.upper name)

def contains (r : Registry) (name : Text) : Bool := (r.get? name).isSome

/-- Adds an entry, in place of one of the same name. -/
def register (r : Registry) (d : CustomDirective) : Registry := ⟨r.directives.insert d.name d⟩

/-- Removes the entry of a name, whatever its case. -/
def unregister (r : Registry) (name : Text) : Registry := ⟨r.directives.erase (Text.upper name)⟩

def names (r : Registry) : List Text := r.directives.names

def size (r : Registry) : Nat := r.directives.size

def isEmpty (r : Registry) : Bool := r.directives.isEmpty

/-- The registry of a list of entries, a later one in place of an earlier one. -/
def ofList (ds : List CustomDirective) : Registry := ds.foldl register empty

end Registry

end ConversationFlow
