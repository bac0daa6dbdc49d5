import ConversationFlow.Files.FileSystem
import ConversationFlow.Text.Dictionary

/-!
# Template variables

A text may name variables between double braces. `Variables.substitute` puts their
values in, in one pass from the left: a name that has no value stays as it stands,
and a value that was put in is not read again.
-/

namespace ConversationFlow

/-- The current branch and the short form of the current commit of a checkout, as far as they are
known. -/
structure Checkout where
  branch : Option Text := none
  commit : Option Text := none
deriving DecidableEq

/-- Values by the names of variables. -/
abbrev Variables := Dictionary Text

namespace Variables

def isBrace (c : Char) : Bool := c = '{' || c = '}'

/-- The name of a variable that a text begins with: a run of characters other than braces,
between two braces on each side. -/
def nameAt? : Text → Option Text
  | '{' :: '{' :: t =>
    let name := t.takeWhile fun c => !isBrace c
    if !name.isEmpty && Text.startsWith ['}', '}'] (t.dropWhile fun c => !isBrace c) then some name
    else none
  | _ => none

/-- The text with the variables replaced by their values. -/
def substitute (vars : Variables) (t : Text) : Text := go vars 0 t
where
  /-- `skip` characters still belong to the variable just replaced. -/
  go (vars : Variables) : Nat → Text → Text
  | _, [] => []
  | skip + 1, _ :: t => go vars skip t
  | 0, c :: t =>
    match (nameAt? (c :: t)).bind fun name => (vars.get? name).map (name, ·) with
    | some (name, value) => value ++ go vars (name.length + 3) t
    | none => c :: go vars 0 t

/-- The moment at which a run begins, as its variables show it. -/
structure Moment where
  date : Text
  dateTime : Text

/-- When and where a run begins. How the checkout of a directory is found among the files is for
the surroundings to say. -/
structure Occasion extends Moment where
  checkout : FileSystem → Path → Checkout

/-- The variables that every run has; in a checkout there are up to two more. -/
def initial (checkout : Checkout) (now : Moment) (cwd : Path) : Variables :=
  let always : Variables := .ofList
    [("DATE".toList, now.date), ("DATETIME".toList, now.dateTime), ("CWD".toList, cwd.text)]
  let withBranch := match checkout.branch with
    | some branch => always.insert "GIT_BRANCH".toList branch
    | none => always
  match checkout.commit with
  | some commit => withBranch.insert "GIT_COMMIT".toList commit
  | none => withBranch

/-- The name of the conversation, and its path if it has one. -/
def setWorkflow (vars : Variables) (name : Text) (path : Option Path) : Variables :=
  let named := vars.insert "WORKFLOW_NAME".toList name
  match path with
  | some p => named.insert "WORKFLOW_PATH".toList p.text
  | none => named

/-- The number of the cycle, counted from 1, and the number of cycles. -/
def setCycle (vars : Variables) (cycle total : Nat) : Variables :=
  (vars.insert "CYCLE_NUMBER".toList (Text.ofNat cycle)).insert "CYCLE_TOTAL".toList
    (Text.ofNat total)

end Variables

end ConversationFlow
