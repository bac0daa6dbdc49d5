import ConversationFlow.Files.FileSystem
import ConversationFlow.Json.Reader
import ConversationFlow.Step.Json
import ConversationFlow.Text.Word

/-!
# Loop detection

Every response of the agent is checked for signs that the run makes no progress: a
phrase in the reasoning, a series of equal responses, a response that says too little,
or a request to stop. The first sign found is the verdict.
-/

namespace ConversationFlow

/-! ## Patterns of repetition

The phrases in an agent's reasoning that show it to be in a loop. A phrase is looked
for anywhere in the text, without regard to case and between word boundaries. -/

/-- A part of a phrase. -/
inductive PhrasePart where
  | literal (t : Text)
  | optional (t : Text)
  | oneOf (ts : List Text)
  | restOfLine
deriving DecidableEq

/-- A phrase, and the notation in which it is reported. -/
structure LoopPattern where
  shown : Text
  parts : List PhrasePart

namespace LoopPattern

/-- A place in a text: the character before it and the text from it on. -/
structure Place where
  previous : Option Char
  rest : Text

/-- Whether a character stands for the lower-case ASCII character `c` of a phrase, in either
case. The long s and the sign for kelvin are letters of their own that fold to ASCII. -/
def folds (c d : Char) : Bool :=
  c = d || (isUpper d && d.toLower = c) || (c = 's' && d = 'ſ') || (c = 'k' && d.toNat = 0x212A)
where
  isUpper (d : Char) : Bool := Text.isUpperLetter d

/-- The place after a text, if it stands here. -/
def after? : Text → Place → Option Place
  | [], p => some p
  | c :: t, ⟨_, d :: rest⟩ => if folds c d then after? t ⟨some d, rest⟩ else none
  | _ :: _, ⟨_, []⟩ => none

/-- The places from here to the end of the line. -/
def onLine (previous : Option Char) : Text → List Place
  | [] => [⟨previous, []⟩]
  | c :: t => ⟨previous, c :: t⟩ :: if c = '\n' then [] else onLine (some c) t

/-- The places at which a part that begins here may end. -/
def ends (p : Place) : PhrasePart → List Place
  | .literal t => (after? t p).toList
  | .optional t => (after? t p).toList ++ [p]
  | .oneOf ts => ts.filterMap fun t => after? t p
  | .restOfLine => onLine p.previous p.rest

/-- Whether a word begins or ends here. -/
def isBoundary (p : Place) : Bool :=
  isWord p.previous != isWord p.rest.head?
where
  isWord (c : Option Char) : Bool := c.any Text.isWordChar

/-- Whether the parts stand here one after the other, up to a boundary. -/
def standsAt : List PhrasePart → Place → Bool
  | [], p => isBoundary p
  | part :: parts, p => (ends p part).any (standsAt parts)

/-- Whether the phrase stands in the text that begins here. -/
def occursFrom (l : LoopPattern) (previous : Option Char) : Text → Bool
  | [] => isBoundary ⟨previous, []⟩ && standsAt l.parts ⟨previous, []⟩
  | c :: t =>
    (isBoundary ⟨previous, c :: t⟩ && standsAt l.parts ⟨previous, c :: t⟩)
      || occursFrom l (some c) t

def occursIn (l : LoopPattern) (t : Text) : Bool := l.occursFrom none t

/-- The phrases that are looked for, in order. -/
def all : List LoopPattern := [
  ⟨"(?i)\\bin a loop\\b".toList, [.literal "in a loop".toList]⟩,
  ⟨"(?i)\\bsame (?:workflow )?prompt (?:being )?repeated\\b".toList,
    [.literal "same ".toList, .optional "workflow ".toList, .literal "prompt ".toList,
      .optional "being ".toList, .literal "repeated".toList]⟩,
  ⟨"(?i)\\balready (?:confirmed|answered|responded).*(?:multiple|several) times\\b".toList,
    [.literal "already ".toList,
      .oneOf ["confirmed".toList, "answered".toList, "responded".toList], .restOfLine,
      .oneOf ["multiple".toList, "several".toList], .literal " times".toList]⟩,
  ⟨"(?i)\\bkeep(?:ing)? (?:my )?response minimal\\b".toList,
    [.literal "keep".toList, .optional "ing".toList, .literal " ".toList,
      .optional "my ".toList, .literal "response minimal".toList]⟩,
  ⟨"(?i)\\brepetitive (?:cycle|loop|pattern)\\b".toList,
    [.literal "repetitive ".toList,
      .oneOf ["cycle".toList, "loop".toList, "pattern".toList]]⟩]

/-- The first phrase that occurs in a text. -/
def find? (t : Text) : Option LoopPattern := all.find? fun l => l.occursIn t

end LoopPattern

/-! ## Stop files

An agent or a human asks for the end of a run by writing a file. Its name carries the
nonce of the run, so that no other run takes notice of it. -/

/-- The content of a stop file. -/
structure StopRequest where
  reason : Text
  needsReview : Bool := false
  extra : Dictionary Json := .empty

namespace StopRequest

private def known : List Text := ["reason".toList, "needs_review".toList]

/-- The request of an object with a reason. A known field may not be written twice; of others
the last one counts. -/
def ofJson? (j : Json) : Option StopRequest := do
  let fields ← j.fields?
  if known.any fun name => 1 < (fields.filter fun f => f.1 == name).length then none
  else return {
    reason := ← j.required "reason" Json.text?
    needsReview := ← j.fieldOr "needs_review" false Json.bool?
    extra := .ofList ((fields.filter fun f => !known.contains f.1).map fun f =>
      (f.1, f.2.canonical)) }

/-- The request that a text makes. A text that is not such an object is the reason itself. -/
def ofText (raw : Text) : StopRequest :=
  match (Json.read? raw).bind ofJson? with
  | some r => r
  | none => { reason := Text.trim raw }

def json (r : StopRequest) : Json :=
  .obj (Json.field "reason" (.str r.reason) :: Json.field "needs_review" (.bool r.needsReview)
    :: r.extra.entries)

end StopRequest

namespace StopFile

def fileName (nonce : Text) : Text := "STOPAUTOMATION-" ++ nonce ++ ".json"

def path (dir : Path) (nonce : Text) : Path := dir.join ⟨fileName nonce⟩

/-- The request in the stop file of a directory, if the file exists. -/
def read (fs : FileSystem) (dir : Path) (nonce : Text) : Option StopRequest :=
  let file := path dir nonce
  if !fs.pathExists file then none
  else
    match fs.readText file with
    | .ok raw => some (.ofText raw)
    | .error cause => some { reason := "unreadable stop file: " ++ cause.message }

/-- How the agent is told to ask for the end of the run. -/
def instruction (dir : Path) (nonce : Text) : Text :=
  "## Stopping the automation\n\nIf you determine that this automated workflow should stop "
    ++ "(the task is complete, you are blocked, or a human needs to review something), "
    ++ "create the file `"
    ++ (path dir nonce).text ++ "` with a JSON body such as:\n\n```json\n"
    ++ "\x7b\"reason\": \"why you are stopping\", \"needs_review\": true\x7d"
    ++ "\n```\n\nDo not create this file for any other purpose."

end StopFile

/-! ## Signs and verdicts -/

/-- Which sign was found. -/
inductive LoopReason where
  | reasoningPattern
  | identicalResponses
  | minimalResponse
  | stopFile
deriving DecidableEq

namespace LoopReason

def all : List LoopReason := [.reasoningPattern, .identicalResponses, .minimalResponse, .stopFile]

def text : LoopReason → Text
  | .reasoningPattern => "REASONING_PATTERN"
  | .identicalResponses => "IDENTICAL_RESPONSES"
  | .minimalResponse => "MINIMAL_RESPONSE"
  | .stopFile => "STOP_FILE"

def read? (t : Text) : Option LoopReason := all.find? fun r => r.text = t

end LoopReason

/-- A sign that was found, in the cycle counted from 1. -/
structure Verdict where
  reason : LoopReason
  detail : Text
  cycle : Nat
  stopRequest : Option StopRequest := none

/-- How many equal responses make a series, and how long a response has to be. -/
structure DetectorSettings where
  identicalThreshold : Nat := 2
  minResponseLength : Nat := 100
deriving DecidableEq

/-- A series has at least one response. -/
def DetectorSettings.effective (s : DetectorSettings) : DetectorSettings :=
  { s with identicalThreshold := max 1 s.identicalThreshold }

/-- What two responses that count as equal agree on: the opening of the text, blanks and case
aside, and the length in bytes. -/
structure Fingerprint where
  opening : Text
  length : Nat
deriving DecidableEq

def Fingerprint.ofResponse (response : Text) : Fingerprint where
  opening := (Text.lower (Text.join [' '] (Text.words response))).take 200
  length := Text.byteLength response

/-- The responses so far. `recent` holds the last fingerprints, as many as make a series. -/
structure LoopDetector where
  settings : DetectorSettings := {}
  stopDir : Path
  nonce : Text
  recent : List Fingerprint := []
  lengths : List Nat := []
  lastReasoning : Option Text := none

namespace LoopDetector

def stopPath (d : LoopDetector) : Path := StopFile.path d.stopDir d.nonce

def instruction (d : LoopDetector) : Text := StopFile.instruction d.stopDir d.nonce

def stopRequest (d : LoopDetector) (fs : FileSystem) : Option StopRequest :=
  StopFile.read fs d.stopDir d.nonce

/-- The last `n` of a list. -/
private def lastOf {α : Type} (n : Nat) (xs : List α) : List α := xs.drop (xs.length - n)

/-- The detector that has seen one more response. -/
def record (d : LoopDetector) (reasoning : Option Text) (response : Text) : LoopDetector :=
  { d with
    recent := lastOf d.settings.identicalThreshold (d.recent ++ [.ofResponse response])
    lengths := d.lengths ++ [response.length]
    lastReasoning := reasoning.filter fun r => !Text.allBlank r }

/-- The phrase found in the last reasoning. -/
def pattern? (d : LoopDetector) : Option LoopPattern := d.lastReasoning.bind LoopPattern.find?

/-- Whether the last responses make a series of equal ones. -/
def repeats (d : LoopDetector) : Bool :=
  1 < d.settings.identicalThreshold && d.settings.identicalThreshold ≤ d.recent.length
    && d.recent.all fun f => d.recent.head? == some f

/-- Whether a response says too little: after the first cycle, without the use of a tool. -/
def saysTooLittle (d : LoopDetector) (response : Text) (cycle tools : Nat) : Bool :=
  0 < cycle && tools == 0 && (Text.trim response).length < d.settings.minResponseLength

/-- The verdict on a response that was just recorded. -/
def verdict (d : LoopDetector) (fs : FileSystem) (response : Text) (cycle tools : Nat) :
    Option Verdict :=
  match d.pattern? with
  | some l => some {
      reason := .reasoningPattern
      detail := "agent reasoning matched loop pattern '" ++ l.shown ++ "'"
      cycle := cycle + 1 }
  | none =>
    if d.repeats then some {
      reason := .identicalResponses
      detail := Text.ofNat d.settings.identicalThreshold ++ " consecutive identical responses"
      cycle := cycle + 1 }
    else if d.saysTooLittle response cycle tools then some {
      reason := .minimalResponse
      detail := "response of " ++ Text.ofNat (Text.trim response).length
        ++ " characters is below the minimum of " ++ Text.ofNat d.settings.minResponseLength
        ++ " with no tool calls"
      cycle := cycle + 1 }
    else
      (d.stopRequest fs).map fun request => {
        reason := .stopFile
        detail := request.reason
        cycle := cycle + 1
        stopRequest := some request }

/-- Records a response of a cycle, counted from 0, and judges it. -/
def check (d : LoopDetector) (fs : FileSystem) (reasoning : Option Text) (response : Text)
    (cycle tools : Nat) : LoopDetector × Option Verdict :=
  (d.record reasoning response, (d.record reasoning response).verdict fs response cycle tools)

/-- Forgets the responses. -/
def reset (d : LoopDetector) : LoopDetector :=
  { d with recent := [], lengths := [], lastReasoning := none }

end LoopDetector

end ConversationFlow
