import ConversationFlow.Help
import ConversationFlow.Settings
import ConversationFlow.Template

/-!
# Prompts

The text of a turn is its body in a frame. The first turn of a cycle opens with the
continuation, the context, the prologues and the help; the last one closes with the
epilogues; every turn has its headers and footers. A blank line separates the parts.
-/

namespace ConversationFlow

/-- Where a turn stands among the turns of a cycle. -/
inductive TurnPlace where
  | among (index total : Nat)
  | inBlock
deriving DecidableEq

namespace TurnPlace

def isFirst : TurnPlace → Bool
  | .among index _ => index == 0
  | .inBlock => false

def isLast : TurnPlace → Bool
  | .among index total => index + 1 == total
  | .inBlock => false

end TurnPlace

/-- What the turns of a cycle are framed with. The first cycle has number 0. -/
structure PromptFrame where
  settings : Settings
  vars : Variables
  cycle : Nat
  context : Text

namespace PromptFrame

/-- What continues the session of an earlier cycle. -/
def continuation (f : PromptFrame) : List Text :=
  if 0 < f.cycle && f.settings.sessionMode == .accumulate then
    (f.settings.continuationPrompt.map f.vars.substitute).toList
  else []

/-- The parts that open the first turn of a cycle. -/
def opening (f : PromptFrame) : List Text :=
  f.continuation
    ++ (if f.context.isEmpty then [] else [f.context])
    ++ f.settings.prologues.map f.vars.substitute
    ++ (if (Help.render f.settings.helpTopics).isEmpty then []
      else [Help.render f.settings.helpTopics])

/-- The parts of a turn in order. `pending` is the help that earlier steps left for it. -/
def parts (f : PromptFrame) (pending : List Text) (body : Text) (place : TurnPlace) : List Text :=
  (if place.isFirst then f.opening else [])
    ++ pending
    ++ f.settings.headers.map f.vars.substitute
    ++ [body]
    ++ f.settings.footers.map f.vars.substitute
    ++ (if place.isLast then f.settings.epilogues.map f.vars.substitute else [])

/-- The text of a turn whose body has its values already. -/
def composeResolved (f : PromptFrame) (pending : List Text) (body : Text) (place : TurnPlace) :
    Text :=
  Text.join "\n\n" (f.parts pending body place)

/-- The text of a turn. -/
def compose (f : PromptFrame) (pending : List Text) (body : Text) (place : TurnPlace) : Text :=
  f.composeResolved pending (f.vars.substitute body) place

end PromptFrame

end ConversationFlow
