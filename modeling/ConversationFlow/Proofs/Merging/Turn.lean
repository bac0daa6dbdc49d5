import ConversationFlow.Step.Merge

/-!
# What a merged turn holds

A turn is described from its members alone: each command is listed under its kind, in
the order of the members, and the text has one line of parts for each member. The
placeholder of a command carries its position among the commands of its kind. The
merger collects the same turn one member at a time (`ofSteps_eq_combined`).
-/

namespace ConversationFlow

/-- The kinds under which a turn lists its commands. -/
inductive CommandKind where
  | run | verify | refcat | lsp | help | custom | consult
deriving DecidableEq

def CommandKind.name : CommandKind → String
  | .run => "RUN"
  | .verify => "VERIFY"
  | .refcat => "REFCAT"
  | .lsp => "LSP"
  | .help => "HELP"
  | .custom => "CUSTOM"
  | .consult => "CONSULT"

def CommandKind.label (k : CommandKind) : Text := k.name.toList

/-- What a placeholder shows of a command: the beginning of a question, all of the others. -/
def CommandKind.shown : CommandKind → Text → Text
  | .consult, text => text.take MergedPrompt.questionLength
  | _, text => text

namespace Step

/-- The command that a step becomes in a turn: its kind, and the text it is listed by. -/
def listing? : Step → Option (CommandKind × Text)
  | .run c _ _ => some (.run, c.command)
  | .verify check _ _ => some (.verify, check.directive)
  | .refcat refs => some (.refcat, Text.join [' '] refs)
  | .lsp query options => some (.lsp, Text.trim (queryText query options))
  | .helpInline topics _ => some (.help, Text.join [' '] topics)
  | .custom name _ => some (.custom, name)
  | .consult text => some (.consult, text)
  | _ => none

/-- The added directive that a step is, with its content. -/
def added? : Step → Option (Text × Text)
  | .custom name content => some (name, content)
  | _ => none

/-- The commands of one kind among the members of a turn. -/
def listed (k : CommandKind) (members : List Step) : List Text :=
  members.filterMap fun s => (s.listing?.filter fun c => c.1 = k).map (·.2)

/-- The text of a step that a turn takes up as it is. -/
def ownText : Step → Text
  | .prompt text => text
  | .merged inner => "[MERGED_PROMPT] " ++ inner.content
  | _ => []

/-- The part of a turn's text that a member becomes, given the members before it. -/
def part (before : List Step) (s : Step) : Text :=
  match s.listing? with
  | some (k, text) =>
    MergedPrompt.placeholder k.label (listed k before).length (k.shown text)
  | none => s.ownText

/-- The parts of the members that follow those before. -/
def parts (before : List Step) : List Step → List Text
  | [] => []
  | s :: rest => part before s :: parts (before ++ [s]) rest

/-- The turn that several members are sent as. -/
def combined (members : List Step) : MergedPrompt where
  content := Text.unlines (parts [] members)
  runCommands := listed .run members
  verifyCommands := listed .verify members
  refcatCommands := listed .refcat members
  lspCommands := listed .lsp members
  helpCommands := listed .help members
  consultCommands := listed .consult members
  customDirectives := members.filterMap added?

/-- A step that can be a member of a turn. -/
def Foldable (s : Step) : Prop :=
  s.isElide = false ∧ s.isControl = false ∧ s.ownsBlocks = false

instance (s : Step) : Decidable s.Foldable := by
  unfold Foldable
  infer_instance

theorem listed_append_single (k : CommandKind) (before : List Step) (s : Step) :
    listed k (before ++ [s]) =
      listed k before ++ ((s.listing?.filter fun c => c.1 = k).map (·.2)).toList := by
  simp only [listed, List.filterMap_append]
  cases h : (s.listing?.filter fun c => c.1 = k).map (·.2) <;> simp [h]

theorem added_append_single (before : List Step) (s : Step) :
    (before ++ [s]).filterMap added? = before.filterMap added? ++ s.added?.toList := by
  rw [List.filterMap_append]
  cases h : s.added? <;> simp [h]

/-- As many added directives are kept as there are commands of that kind. -/
theorem length_added (members : List Step) :
    (members.filterMap added?).length = (listed .custom members).length := by
  induction members with
  | nil => rfl
  | cons s rest ih =>
    cases s <;> simp_all [listed, listing?, added?, List.filterMap_cons, Option.filter]

end Step

namespace MergedPrompt

open Step

/-- A turn that lists members and has no text yet. -/
def lists (members : List Step) : MergedPrompt := { combined members with content := [] }

/-- Taking in one member adds its command to the list of its kind and answers with its part. -/
theorem add_lists (before : List Step) {s : Step} (h : s.Foldable) :
    (lists before).add s = (lists (before ++ [s]), part before s) := by
  obtain ⟨notLink, notControl, _⟩ := h
  cases s with
  | checkpoint | compact | newConversation | pause => cases notControl
  | elide => cases notLink
  | custom name content =>
    simp only [add, lists, combined, listed_append_single, listing?, added_append_single, added?,
      part, length_added, CommandKind.label, CommandKind.name, CommandKind.shown, Option.filter, reduceCtorEq,
      decide_false, Bool.false_eq_true, if_false, Option.map, Option.toList, List.append_nil]
  | prompt | merged =>
    simp only [add, lists, combined, listed_append_single, listing?, added_append_single, added?,
      part, Option.filter, Option.map, Option.toList, List.append_nil]
    rfl
  | _ =>
    simp only [add, lists, combined, listed_append_single, listing?, added_append_single, added?,
      part, CommandKind.label, CommandKind.name, CommandKind.shown, Option.filter, reduceCtorEq, decide_true,
      decide_false, Bool.false_eq_true, if_true, if_false, Option.map, Option.toList,
      List.append_nil]

theorem addAll_lists (before members : List Step) (h : ∀ s ∈ members, s.Foldable) :
    (lists before).addAll members = (lists (before ++ members), parts before members) := by
  induction members generalizing before with
  | nil => simp [addAll, parts]
  | cons s rest ih =>
    have hs := add_lists before (h s (by simp))
    have hrest := ih (before ++ [s]) fun t ht => h t (by simp [ht])
    simp only [addAll, hs, hrest, parts, List.append_assoc, List.singleton_append]

/-- The merger collects the turn that the members describe. -/
theorem ofSteps_eq_combined {members : List Step} (h : ∀ s ∈ members, s.Foldable) :
    ofSteps members = combined members := by
  have start : (⟨[], [], [], [], [], [], [], []⟩ : MergedPrompt) = lists [] := rfl
  unfold ofSteps
  rw [start, addAll_lists [] members h]
  rfl

end MergedPrompt

end ConversationFlow
