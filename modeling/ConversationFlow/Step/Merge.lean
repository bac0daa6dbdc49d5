import ConversationFlow.Step.Written
import ConversationFlow.Text.Case

/-!
# Merging linked steps

ELIDE links the step before it to the step after it. Steps that are linked one to
the next are sent as one turn, whose text holds a placeholder for every command
among them; `fill` puts the outputs in. A step that controls the session or owns
blocks is never taken into a turn; its blocks are merged by the same rule.

`mergeWithMap` also says for every step at which place of the result it ended.
-/

namespace ConversationFlow

namespace MergedPrompt

/-- The mark for the `index`-th command of a kind. Its payload stays on one line and holds
no pair of closing braces. -/
def placeholder (kind : Text) (index : Nat) (payload : Text) : Text :=
  let line := Text.replace ['\n'] [' '] payload
  "\x7b\x7b" ++ kind ++ ':' :: (Text.ofNat index ++ ':' ::
    (Text.replace "\x7d\x7d" "\x7d \x7d" line ++ "\x7d\x7d".toList))

/-- The longest token that the text begins with, the last of several. -/
def tokenAt? (subs : List (Text × Text)) (t : Text) : Option (Text × Text) :=
  (subs.filter fun s => !s.1.isEmpty && Text.startsWith s.1 t).foldl
    (fun best s =>
      match best with
      | some b => if Text.byteLength b.1 ≤ Text.byteLength s.1 then some s else best
      | none => some s) none

/-- The text with every token replaced that begins with two opening braces. Text that was put
in is not read again. -/
def fill (subs : List (Text × Text)) (t : Text) : Text := go 0 t
where
  /-- `skip` characters still belong to the token just replaced. -/
  go : Nat → Text → Text
  | _, [] => []
  | skip + 1, _ :: t => go skip t
  | 0, c :: t =>
    if Text.startsWith "\x7b\x7b" (c :: t) then
      match tokenAt? subs (c :: t) with
      | some (token, output) => output ++ go (token.length - 1) t
      | none => c :: go 0 t
    else c :: go 0 t

/-- The number of characters of a question that its placeholder shows. -/
def questionLength : Nat := 50

/-- A turn with one more step: the turn, and the part of its text that the step becomes. -/
def add (m : MergedPrompt) : Step → MergedPrompt × Text
  | .prompt text => (m, text)
  | .run c _ _ =>
    ({ m with runCommands := m.runCommands ++ [c.command] },
      placeholder "RUN" m.runCommands.length c.command)
  | .verify check _ _ =>
    ({ m with verifyCommands := m.verifyCommands ++ [check.directive] },
      placeholder "VERIFY" m.verifyCommands.length check.directive)
  | .refcat refs =>
    let payload := Text.join [' '] refs
    ({ m with refcatCommands := m.refcatCommands ++ [payload] },
      placeholder "REFCAT" m.refcatCommands.length payload)
  | .lsp query options =>
    let payload := Text.trim (Step.queryText query options)
    ({ m with lspCommands := m.lspCommands ++ [payload] },
      placeholder "LSP" m.lspCommands.length payload)
  | .helpInline topics _ =>
    let payload := Text.join [' '] topics
    ({ m with helpCommands := m.helpCommands ++ [payload] },
      placeholder "HELP" m.helpCommands.length payload)
  | .custom name content =>
    ({ m with customDirectives := m.customDirectives ++ [(name, content)] },
      placeholder "CUSTOM" m.customDirectives.length name)
  | .consult text =>
    ({ m with consultCommands := m.consultCommands ++ [text] },
      placeholder "CONSULT" m.consultCommands.length (text.take questionLength))
  | .merged inner => (m, "[MERGED_PROMPT] " ++ inner.content)
  | s => (m, '[' :: (Text.upper s.typeName ++ "] " ++ s.directive))

/-- A turn with more steps, and the parts of its text that they become. -/
def addAll (m : MergedPrompt) : List Step → MergedPrompt × List Text
  | [] => (m, [])
  | s :: rest =>
    ((addAll (m.add s).1 rest).1, (m.add s).2 :: (addAll (m.add s).1 rest).2)

/-- The turn that steps are sent as. -/
def ofSteps (steps : List Step) : MergedPrompt :=
  { (addAll ⟨[], [], [], [], [], [], [], []⟩ steps).1 with
    content := Text.unlines (addAll ⟨[], [], [], [], [], [], [], []⟩ steps).2 }

end MergedPrompt

namespace Step

/-- What a step is to the merger: a link, a step that stands alone, or a part of a turn. -/
inductive Piece where
  | link
  | alone (s : Step)
  | part (s : Step)

/-- The output so far, the turn being collected, and the place of every step read. -/
structure Grouping where
  out : List Step := []
  places : List Nat := []
  group : List Step := []
  linked : Bool := false

namespace Grouping

/-- One step is a turn as it is. -/
def turn : List Step → Step
  | [s] => s
  | steps => .merged (.ofSteps steps)

/-- Ends the turn being collected. -/
def flush (g : Grouping) : Grouping :=
  if g.group.isEmpty then g else { g with out := g.out ++ [turn g.group], group := [] }

/-- Reads one piece. The turn being collected will stand at place `out.length`. -/
def feed (g : Grouping) : Piece → Grouping
  | .link =>
    let place := if g.group.isEmpty then g.out.length - 1 else g.out.length
    { g with places := g.places ++ [place], linked := true }
  | .alone s =>
    let g := g.flush
    { g with places := g.places ++ [g.out.length], out := g.out ++ [s], linked := false }
  | .part s =>
    let g := if g.linked && !g.group.isEmpty then g else g.flush
    { g with places := g.places ++ [g.out.length], group := g.group ++ [s], linked := false }

/-- The steps that pieces are merged to, and the place of each piece. -/
def ofPieces (pieces : List Piece) : List Step × List Nat :=
  let g := (pieces.foldl feed {}).flush
  (g.out, g.places)

end Grouping

mutual

/-- A step as a piece, its blocks merged. -/
def piece : Step → Piece
  | .elide => .link
  | .run c f s =>
    let merged := .run c (Grouping.ofPieces (piecesOf f)).1 (Grouping.ofPieces (piecesOf s)).1
    if f.isEmpty && s.isEmpty then .part merged else .alone merged
  | .verify c f s =>
    let merged := .verify c (Grouping.ofPieces (piecesOf f)).1 (Grouping.ofPieces (piecesOf s)).1
    if f.isEmpty && s.isEmpty then .part merged else .alone merged
  | s => if s.isControl then .alone s else .part s

/-- Steps as pieces. -/
def piecesOf : List Step → List Piece
  | [] => []
  | s :: rest => piece s :: piecesOf rest

end

/-- Merges linked steps. The second list gives for every step its place in the first. -/
def mergeWithMap (steps : List Step) : List Step × List Nat := Grouping.ofPieces (piecesOf steps)

/-- Merges linked steps. -/
def merge (steps : List Step) : List Step := (mergeWithMap steps).1

end Step

end ConversationFlow
