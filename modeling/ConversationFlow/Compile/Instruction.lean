import ConversationFlow.Compile.Error
import ConversationFlow.Directive.Lexer
import ConversationFlow.Help
import ConversationFlow.Settings
import ConversationFlow.Step.Basic
import ConversationFlow.Value.Scalar
import ConversationFlow.Value.Words

/-!
# What a directive says

`Directive.instruction` reads the value of one directive. The result does not
depend on the directives around it; what an instruction does to a conversation is
the matter of `ConversationFlow.Compile.Draft`.
-/

namespace ConversationFlow

/-- What a directive tells the compiler to do. -/
inductive Instruction where
  | configure (change : Settings → Settings)
  | prologue (text : Text)
  | epilogue (text : Text)
  | step (s : Step) (change : Settings → Settings)
  | retry (count : Nat) (prompt : Option Text)
  | human (consult : Bool) (message : Text)
  | openBlock (kind : BlockKind)
  | closeBlock
  | includeFile (target : Text)

/-- Why the value of a directive is not taken. -/
inductive Refusal where
  | missing
  | invalid (reason : ValueError)
  | unknownTopic (topic : Text)
deriving DecidableEq

/-- The error of a refused value. -/
def Refusal.error (line : SourceLine) (k : Keyword) (value : Text) : Refusal → ParseError
  | .missing => .missingValue line k
  | .invalid reason => .invalidValue line k value reason
  | .unknownTopic topic => .unknownHelpTopic line topic

namespace Instruction

def refuse {α : Type} : Except ValueError α → Except Refusal α
  | .ok a => .ok a
  | .error e => .error (.invalid e)

def expect {α : Type} (reason : ValueError) : Option α → Except Refusal α
  | some a => .ok a
  | none => .error (.invalid reason)

/-- A value that is not blank. -/
def required (value : Text) : Except Refusal Text :=
  if Text.allBlank value then .error .missing else .ok value

/-- At least one word. -/
def patterns (value : Text) : Except Refusal (List Text) := do
  let ws ← refuse (Words.split value)
  if ws.isEmpty then .error .missing else .ok ws

/-- Tags, separated by commas and blanks. -/
def tags (value : Text) : List Text :=
  (value.splitOnP fun c => c = ',' || Text.isBlank c).filter fun t => !t.isEmpty

/-- At least one topic, all of them known. -/
def helpTopics (value : Text) : Except Refusal (List Text) :=
  let topics := tags value
  if topics.isEmpty then .error .missing
  else
    match topics.find? fun t => (Help.find? t).isNone with
    | some t => .error (.unknownTopic t)
    | none => .ok topics

def assignment (word : Text) : Except ValueError (Text × Text) :=
  match Assignment.split? word with
  | some a => .ok a
  | none => .error (.notAssignment word)

/-- At least one assignment. -/
def assignments (value : Text) : Except ValueError (List (Text × Text)) := do
  let ws ← Words.split value
  if ws.isEmpty then .error .assignmentExpected else ws.mapM assignment

/-- The option that a word writes: `--name=value`, `--flag` or `name=value`. -/
def option? (word : Text) : Option (Text × Text) :=
  match Text.after? "--" word with
  | some o => some ((Text.cutAt? '=' o).getD (o, "true"))
  | none => Text.cutAt? '=' word

/-- The words that are no options, and the options. -/
def splitOptions (value : Text) : Except ValueError (List Text × Dictionary Text) := do
  let ws ← Words.split value
  return (ws.filter fun w => (option? w).isNone, Dictionary.ofList (ws.filterMap option?))

/-- The kind of a check, `all` if none is named, and its options. -/
def namedCheck (value : Text) : Except ValueError Check := do
  let (positional, options) ← splitOptions value
  return .named (positional.headD "all") options

/-- The two sides of an arrow. -/
def traceCheck (value : Text) : Except ValueError (Text × Text) :=
  match (Text.cut? "->" value) <|> (Text.cut? "→" value) with
  | none => .error .arrowExpected
  | some (source, target) =>
    let source := Text.trim source
    let target := Text.trim target
    if source.isEmpty || target.isEmpty then .error .arrowSideMissing else .ok (source, target)

def bound (metric sign threshold : Text) : Except ValueError CoverageCheck :=
  match Comparison.ofSign? sign with
  | none => .error (.unknownOperator sign)
  | some c =>
    let number := (threshold.reverse.dropWhile (· = '%')).reverse
    match Decimal.toFloat? number with
    | none => .error (.thresholdNotNumber threshold)
    | some x => .ok ⟨some metric, some c, some x⟩

/-- A metric, a bound on it, or a bound on the overall coverage. -/
def coverageCheck (value : Text) : Except ValueError CoverageCheck :=
  match Text.words value with
  | [] => .ok .reportOnly
  | [metric] => .ok ⟨some metric, none, none⟩
  | [sign, threshold] => bound "overall" sign threshold
  | [metric, sign, threshold] => bound metric sign threshold
  | _ => .error .coverageExpected

/-- A query of at least one word, and options. -/
def query (value : Text) : Except ValueError (Text × Dictionary Text) := do
  let (positional, options) ← splitOptions value
  if positional.isEmpty then .error .queryExpected else .ok (Text.join [' '] positional, options)

/-- A count, and the words of a prompt after it. -/
def retryOf (value : Text) : Except Refusal Instruction := do
  match ← refuse (Words.split value) with
  | [] => .error .missing
  | count :: rest =>
    let n ← refuse (Count.read count)
    .ok (.retry n (if rest.isEmpty then none else some (Text.join [' '] rest)))

def atLeastOne (n : Nat) : Except ValueError Nat :=
  if n = 0 then .error .countZero else .ok n

/-- What a built-in directive with a value says. -/
def ofKeyword (k : Keyword) (value : Text) : Except Refusal Instruction :=
  let set (change : Settings → Settings) : Instruction := .configure change
  let setRun (change : RunSettings → RunSettings) : Instruction :=
    .configure fun s => { s with run := change s.run }
  let setVerify (change : VerifySettings → VerifySettings) : Instruction :=
    .configure fun s => { s with verify := change s.verify }
  match k with
  | .model => do let v ← required value; return set fun s => { s with model := some v }
  | .adapter => do let v ← required value; return set fun s => { s with adapter := some v }
  | .mode => do let v ← required value; return set fun s => { s with mode := some v }
  | .sessionMode => do
    let m ← expect .sessionModeExpected (SessionMode.read? value)
    return set fun s => { s with sessionMode := m }
  | .maxCycles => do
    let n ← refuse (Count.read value >>= atLeastOne)
    return set fun s => { s with maxCycles := some n }
  | .cwd => do let v ← required value; return set fun s => { s with cwd := some v }
  | .contextLimit => do
    let x ← refuse (Percent.read value); return set fun s => { s with contextLimit := some x }
  | .onContextLimit => do
    let p ← expect .limitPolicyExpected (LimitPolicy.read? value)
    return set fun s => { s with onContextLimit := p }
  | .onContextLimitPrompt => do
    let v ← required value; return set fun s => { s with onContextLimitPrompt := some v }
  | .compactionMin => do
    let x ← refuse (Percent.read value); return set fun s => { s with compactionMin := some x }
  | .compactionThreshold => do
    let x ← refuse (Percent.read value)
    return set fun s => { s with compactionThreshold := some x }
  | .compactionMax => do
    let x ← refuse (Percent.read value); return set fun s => { s with compactionMax := some x }
  | .compactSummary => do
    let v ← required value; return set fun s => { s with compactSummary := some v }
  | .validationMode => do
    let m ← expect .validationModeExpected (ValidationMode.read? value)
    return set fun s => { s with validationMode := m }
  | .modelPolicy => do let v ← required value; return set fun s => { s with modelPolicy := some v }
  | .consultTimeout => do
    let d ← refuse (Duration.read value); return set fun s => { s with consultTimeout := some d }
  | .outputFormat => do
    let v ← required value; return set fun s => { s with outputFormat := some v }
  | .outputFile => do let v ← required value; return set fun s => { s with outputFile := some v }
  | .outputDir => do let v ← required value; return set fun s => { s with outputDir := some v }
  | .continuationPrompt => do
    let v ← required value; return set fun s => { s with continuationPrompt := some v }
  | .sessionName => do let v ← required value; return set fun s => { s with sessionName := some v }
  | .eventLog => do let v ← required value; return set fun s => { s with eventLog := some v }
  | .infiniteSessions => do
    let b ← refuse (Flag.read value true)
    return set fun s => { s with infiniteSessions := some b }
  | .allowShell => do
    let b ← refuse (Flag.read value true); return setRun fun r => { r with allowShell := b }
  | .runOnError => do
    let p ← expect .onErrorExpected (OnError.read? value)
    return setRun fun r => { r with onError := p }
  | .runOutput => do
    let p ← expect .outputPolicyExpected (OutputPolicy.read? value)
    return setRun fun r => { r with output := p }
  | .runOutputLimit => do
    let n ← refuse (Count.read value); return setRun fun r => { r with outputLimit := some n }
  | .runTimeout => do
    let d ← refuse (Duration.read value); return setRun fun r => { r with timeout := d }
  | .runCwd => do let v ← required value; return setRun fun r => { r with cwd := some v }
  | .runEnv => do
    let es ← refuse (assignments value); return setRun fun r => { r with env := r.env.insertAll es }
  | .verifyOnError => do
    let p ← expect .onErrorExpected (OnError.read? value)
    return setVerify fun r => { r with onError := p }
  | .verifyOutput => do
    let p ← expect .outputPolicyExpected (OutputPolicy.read? value)
    return setVerify fun r => { r with output := p }
  | .verifyLimit => do
    let n ← refuse (Count.read value); return setVerify fun r => { r with limit := some n }
  | .context => do
    let ps ← patterns value; return set fun s => { s with context := s.context ++ ps }
  | .contextOptional => do
    let ps ← patterns value
    return set fun s => { s with contextOptional := s.contextOptional ++ ps }
  | .contextExclude => do
    let ps ← patterns value; return set fun s => { s with contextExclude := s.contextExclude ++ ps }
  | .allowFiles => do
    let ps ← patterns value; return set fun s => { s with allowFiles := s.allowFiles ++ ps }
  | .denyFiles => do
    let ps ← patterns value; return set fun s => { s with denyFiles := s.denyFiles ++ ps }
  | .allowDir => do
    let ps ← patterns value; return set fun s => { s with allowDirs := s.allowDirs ++ ps }
  | .denyDir => do
    let ps ← patterns value; return set fun s => { s with denyDirs := s.denyDirs ++ ps }
  | .header => do
    let v ← required value; return set fun s => { s with headers := s.headers ++ [v] }
  | .footer => do
    let v ← required value; return set fun s => { s with footers := s.footers ++ [v] }
  | .compactPreserve =>
    .ok (set fun s => { s with compactPreserve := s.compactPreserve ++ tags value })
  | .require => do
    let ps ← patterns value; return set fun s => { s with requirements := s.requirements ++ ps }
  | .modelRequires => do
    let ps ← patterns value
    return set fun s => { s with modelRequirements := s.modelRequirements ++ ps }
  | .modelPrefers => do
    let ps ← patterns value
    return set fun s => { s with modelPreferences := s.modelPreferences ++ ps }
  | .help => do
    let ts ← helpTopics value; return set fun s => { s with helpTopics := s.helpTopics ++ ts }
  | .prologue => do return .prologue (← required value)
  | .epilogue => do return .epilogue (← required value)
  | .prompt => do return .step (.prompt (← required value)) id
  | .run => do return .step (.run { command := ← required value } [] []) id
  | .runRetry => retryOf value
  | .checkpoint =>
    let name := Text.trim value
    .ok (.step (.checkpoint (if name.isEmpty then none else some name)) id)
  | .compact => .ok (.step (.compact (tags value)) id)
  | .newConversation => .ok (.step .newConversation id)
  | .elide => .ok (.step .elide id)
  | .verify => do return .step (.verify (← refuse (namedCheck value)) [] []) id
  | .verifyTrace => do
    let (source, target) ← refuse (traceCheck value)
    return .step (.verify (.trace source target) [] [])
      fun s => { s with traceLinks := s.traceLinks ++ [(source, target)] }
  | .verifyCoverage => do
    return .step (.verify (.coverage (← refuse (coverageCheck value))) [] []) id
  | .refcat => do
    let refs ← patterns value
    return .step (.refcat refs) fun s => { s with refcatRefs := s.refcatRefs ++ refs }
  | .lsp => do
    let (q, options) ← refuse (query value)
    return .step (.lsp q options) id
  | .helpInline => do return .step (.helpInline (← helpTopics value) true) id
  | .pause => .ok (.human false value)
  | .consult => .ok (.human true value)
  | .onFailure => .ok (.openBlock .onFailure)
  | .onSuccess => .ok (.openBlock .onSuccess)
  | .endBlock => .ok .closeBlock
  | .includeFile => do return .includeFile (← required value)

end Instruction

/-- What a directive says, or the error of its value. -/
def Directive.instruction (file : Option Path) (d : Directive) : Except ParseError Instruction :=
  match d.name with
  | .custom name => .ok (.step (.custom name d.value) id)
  | .builtin k =>
    match Instruction.ofKeyword k d.value with
    | .ok i => .ok i
    | .error r => .error (r.error ⟨file, d.line⟩ k d.value)

end ConversationFlow
