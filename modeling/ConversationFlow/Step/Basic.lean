import ConversationFlow.Text.Dictionary

/-!
# Steps

A conversation is a list of steps: turns sent to the agent, commands, checks and
directives that control the session. Commands and checks may own two blocks of
further steps, one for a failure and one for a success. A merged prompt stands
for several steps that are sent as one turn.
-/

namespace ConversationFlow

/-- The order that a coverage check asks for. -/
inductive Comparison where
  | atLeast
  | atMost
  | above
  | below
  | equal
deriving DecidableEq

namespace Comparison

def all : List Comparison := [.atLeast, .atMost, .above, .below, .equal]

def sign : Comparison → Text
  | .atLeast => ">="
  | .atMost => "<="
  | .above => ">"
  | .below => "<"
  | .equal => "=="

def ofSign? (t : Text) : Option Comparison := all.find? fun c => c.sign = t

/-- Equality allows for a distance below the gap above 1. -/
def holds (c : Comparison) (actual threshold : Float) : Bool :=
  match c with
  | .atLeast => actual ≥ threshold
  | .atMost => actual ≤ threshold
  | .above => actual > threshold
  | .below => actual < threshold
  | .equal => (actual - threshold).abs < Float.ofScientific 2220446049250313 true 31

end Comparison

/-- What a coverage check measures, and the bound if it sets one. -/
structure CoverageCheck where
  metric : Option Text
  comparison : Option Comparison
  threshold : Option Float
deriving BEq

def CoverageCheck.reportOnly : CoverageCheck := ⟨none, none, none⟩

/-- A check that a verifier performs. -/
inductive Check where
  | named (kind : Text) (options : Dictionary Text)
  | trace (source target : Text)
  | coverage (check : CoverageCheck)

namespace Check

instance : BEq Check where
  beq
    | .named k o, .named k' o' => k == k' && o == o'
    | .trace s t, .trace s' t' => s == s' && t == t'
    | .coverage c, .coverage c' => c == c'
    | _, _ => false

end Check

/-- A command, and how often it is tried again after a prompt. -/
structure RunCommand where
  command : Text
  retries : Nat := 0
  retryPrompt : Option Text := none
deriving DecidableEq

/-- The prompt of a retry that names none. -/
def RunCommand.defaultRetryPrompt : Text := "Fix the error above and try again.".toList

/-- One turn made of several steps. `content` holds a placeholder for each of the listed
commands, which are listed by kind. -/
structure MergedPrompt where
  content : Text
  runCommands : List Text := []
  verifyCommands : List Text := []
  refcatCommands : List Text := []
  lspCommands : List Text := []
  helpCommands : List Text := []
  consultCommands : List Text := []
  customDirectives : List (Text × Text) := []
deriving DecidableEq

/-- A step of a conversation. -/
inductive Step where
  | prompt (text : Text)
  | run (command : RunCommand) (onFailure onSuccess : List Step)
  | checkpoint (name : Option Text)
  | compact (preserve : List Text)
  | newConversation
  | elide
  | verify (check : Check) (onFailure onSuccess : List Step)
  | refcat (refs : List Text)
  | lsp (query : Text) (options : Dictionary Text)
  | helpInline (topics : List Text) (mergeWithNext : Bool)
  | custom (name content : Text)
  | consult (text : Text)
  | pause (text : Text)
  | merged (prompt : MergedPrompt)
deriving Inhabited

namespace Step

/-- The name of the kind of a step. -/
def typeName : Step → Text
  | .prompt _ => "prompt"
  | .run .. => "run"
  | .checkpoint _ => "checkpoint"
  | .compact _ => "compact"
  | .newConversation => "new_conversation"
  | .elide => "elide"
  | .verify (.named ..) .. => "verify"
  | .verify (.trace ..) .. => "verify_trace"
  | .verify (.coverage _) .. => "verify_coverage"
  | .refcat _ => "refcat"
  | .lsp .. => "lsp"
  | .helpInline .. => "help_inline"
  | .custom .. => "custom"
  | .consult _ => "consult"
  | .pause _ => "pause"
  | .merged _ => "merged_prompt"

/-- Whether the step may own blocks. -/
def canOwnBlocks : Step → Bool
  | .run .. | .verify .. => true
  | _ => false

/-- Whether the step controls the session, so that no turn can take it in. -/
def isControl : Step → Bool
  | .checkpoint _ | .compact _ | .newConversation | .pause _ => true
  | _ => false

/-- Whether the step is a turn of its own. -/
def isAgentTurn : Step → Bool
  | .prompt _ | .merged _ => true
  | _ => false

/-- The blocks for a failure and for a success, empty for a step that owns none. -/
def blocks : Step → List Step × List Step
  | .run _ f s | .verify _ f s => (f, s)
  | _ => ([], [])

/-- The step with other blocks, if it may own any. -/
def withBlocks : Step → (onFailure onSuccess : List Step) → Step
  | .run c _ _, f, t => .run c f t
  | .verify c _ _, f, t => .verify c f t
  | s, _, _ => s

def ownsBlocks (s : Step) : Bool := !s.blocks.1.isEmpty || !s.blocks.2.isEmpty

def isElide : Step → Bool
  | .elide => true
  | _ => false

mutual

/-- Equality of steps; numbers are compared by value, so a step that holds no number as a
threshold differs from itself. -/
def same : Step → Step → Bool
  | .prompt t, .prompt t' => t == t'
  | .run c f s, .run c' f' s' => c == c' && sameAll f f' && sameAll s s'
  | .checkpoint n, .checkpoint n' => n == n'
  | .compact p, .compact p' => p == p'
  | .newConversation, .newConversation => true
  | .elide, .elide => true
  | .verify c f s, .verify c' f' s' => c == c' && sameAll f f' && sameAll s s'
  | .refcat r, .refcat r' => r == r'
  | .lsp q o, .lsp q' o' => q == q' && o == o'
  | .helpInline t m, .helpInline t' m' => t == t' && m == m'
  | .custom n c, .custom n' c' => n == n' && c == c'
  | .consult t, .consult t' => t == t'
  | .pause t, .pause t' => t == t'
  | .merged m, .merged m' => m == m'
  | _, _ => false

/-- Equality of lists of steps. -/
def sameAll : List Step → List Step → Bool
  | [], [] => true
  | a :: as, b :: bs => same a b && sameAll as bs
  | _, _ => false

end

instance : BEq Step := ⟨same⟩

end Step

end ConversationFlow
