import ConversationFlow.Proofs.Merging.Filling
import ConversationFlow.Proofs.Running.Courses

/-!
# What a merged turn is resolved to

A merged turn is carried out kind by kind, from the lists that it keeps. This comes to the same as
carrying out its members: each command gives the output of the member that it is, under the mark
that the text of the turn has for it (`resolve_ofSteps`). A turn whose texts hold no two opening
braces is then its members' parts, each mark replaced by the output of its own command.

Nothing is said about what the commands, the host and the files answer.
-/

namespace ConversationFlow

open Step MergedPrompt

namespace Run

/-- The output that a member of a turn leaves. -/
def filling (r : Run) (place : StepPlace) : Step → Action Text
  | .run c _ _ => r.commandFilling c.command place
  | .verify check _ _ => r.hostFilling check.directive place
  | .refcat refs => r.excerpts (Text.words (Text.join [' '] refs))
  | .lsp query options =>
    r.hostFilling ("LSP ".toList ++ Text.trim (queryText query options)) place
  | .helpInline topics _ => return Help.render (Text.words (Text.join [' '] topics))
  | .custom name content => r.customFilling name content place
  | .consult text => return text
  | _ => return []

/-- The marks of commands with the outputs that their members leave. -/
def carryOut (r : Run) (place : StepPlace) : List Command → Action (List (Text × Text))
  | [] => return []
  | c :: rest => do
    let output ← r.filling place c.step
    return (c.mark, output) :: (← carryOut r place rest)

end Run

/-- What a step leaves in every turn that it is a member of: the commands of the turn are carried
out, each once, and those that stand for the step give this under their marks. -/
def Step.Leaves (s : Step) (output : Run → StepPlace → Action Text) : Prop :=
  ∀ members : List Step, (∀ m ∈ members, m.Foldable) → s ∈ members →
    (∃ c ∈ commands [] members, c.step = s) ∧
    ∀ c ∈ commands [] members, c.step = s → ∃ earlier later,
      (earlier ++ c :: later).Perm (commands [] members) ∧
      ∀ (r : Run) (place : StepPlace), r.resolve (ofSteps members) place = do
        let first ← r.carryOut place earlier
        let text ← output r place
        let rest ← r.carryOut place later
        return first ++ (c.mark, text) :: rest

namespace Run

variable {r : Run} {place : StepPlace} {s : Step}

theorem carryOut_append (cs ds : List Command) :
    r.carryOut place (cs ++ ds) = do
      let first ← r.carryOut place cs
      let rest ← r.carryOut place ds
      return first ++ rest := by
  induction cs with
  | nil => simp [carryOut]
  | cons c cs ih => simp [carryOut, ih]

/-- The commands of one kind, numbered as they are listed, are carried out one by one. -/
theorem fillings_commandsOf (k : CommandKind) (before members : List Step) :
    fillings k.label (listed k before).length
        ((commandsOf k before members).map fun c => (c.kind.shown c.text, r.filling place c.step)) =
      r.carryOut place (commandsOf k before members) := by
  induction members generalizing before with
  | nil => rfl
  | cons s rest ih =>
    have hrest := ih (before ++ [s])
    rw [listed_append_single] at hrest
    rw [commandsOf_cons, command?]
    cases hl : s.listing? with
    | none =>
      simp only [hl, Option.filter_none, Option.map_none, Option.toList_none, List.append_nil,
        List.nil_append] at hrest ⊢
      exact hrest
    | some c =>
      by_cases hk : c.1 = k
      · subst hk
        simp only [hl, Option.filter, decide_true, if_true, Option.map_some, Option.toList_some,
          List.length_append, List.length_singleton, List.singleton_append, List.map_cons,
          fillings, carryOut, Command.mark] at hrest ⊢
        rw [hrest]
      · simp only [hl, Option.filter, hk, decide_false, Bool.false_eq_true, if_false,
          Option.map_some, Option.map_none, Option.toList_none, List.append_nil,
          List.nil_append] at hrest ⊢
        exact hrest

/-- A list that a turn keeps of its members is that of the commands of one kind. -/
theorem filterMap_eq_commandsOf (k : CommandKind) {pick : Step → Option (Text × Action Text)}
    (h : ∀ s, pick s = (s.listing?.filter fun c => c.1 = k).map fun c =>
      (k.shown c.2, r.filling place s)) (before members : List Step) :
    members.filterMap pick =
      (commandsOf k before members).map fun c => (c.kind.shown c.text, r.filling place c.step) := by
  induction members generalizing before with
  | nil => rfl
  | cons s rest ih =>
    rw [List.filterMap_cons, h s, ih (before ++ [s]), commandsOf_cons, command?]
    cases s.listing? with
    | none => rfl
    | some c =>
      by_cases hk : c.1 = k
      · subst hk
        simp [Option.filter]
      · simp [Option.filter, hk]

/-- The commands that a turn lists by their texts are carried out as the members are, where the
text alone says what a member leaves. -/
theorem fillings_listed (r : Run) (place : StepPlace) (k : CommandKind)
    {output : Text → Action Text}
    (h : ∀ s text, s.listing? = some (k, text) → output text = r.filling place s)
    (members : List Step) :
    fillings k.label 0 ((listed k members).map fun text => (k.shown text, output text)) =
      r.carryOut place (commandsOf k [] members) := by
  rw [listed, List.map_filterMap, filterMap_eq_commandsOf k (fun s => ?_) []]
  · exact fillings_commandsOf k [] members
  · cases hl : s.listing? with
    | none => rfl
    | some c =>
      by_cases hk : c.1 = k
      · subst hk
        simp [Option.filter, h s c.2 hl]
      · simp [Option.filter, hk]

/-- The added directives of a turn, which are kept with their contents, likewise. -/
theorem fillings_added (r : Run) (place : StepPlace) (members : List Step) :
    fillings CommandKind.custom.label 0
        ((members.filterMap added?).map fun d => (d.1, r.customFilling d.1 d.2 place)) =
      r.carryOut place (commandsOf .custom [] members) := by
  rw [List.map_filterMap, filterMap_eq_commandsOf .custom (fun s => ?_) []]
  · exact fillings_commandsOf .custom [] members
  · cases s <;> rfl

/-- A merged turn is carried out as its members are, kind by kind. -/
theorem resolve_ofSteps {members : List Step} (foldable : ∀ s ∈ members, s.Foldable) :
    r.resolve (ofSteps members) place =
      r.carryOut place (commandKinds.flatMap fun k => commandsOf k [] members) := by
  have runs := fillings_listed r place .run
    (show ∀ s text, s.listing? = some (.run, text) →
      r.commandFilling text place = r.filling place s by
        intro s text hs; cases s <;> cases hs; rfl) members
  have checks := fillings_listed r place .verify
    (show ∀ s text, s.listing? = some (.verify, text) →
      r.hostFilling text place = r.filling place s by
        intro s text hs; cases s <;> cases hs; rfl) members
  have references := fillings_listed r place .refcat
    (show ∀ s text, s.listing? = some (.refcat, text) →
      r.excerpts (Text.words text) = r.filling place s by
        intro s text hs; cases s <;> cases hs; rfl) members
  have queries := fillings_listed r place .lsp
    (show ∀ s text, s.listing? = some (.lsp, text) →
      r.hostFilling ("LSP ".toList ++ text) place = r.filling place s by
        intro s text hs; cases s <;> cases hs; rfl) members
  have topics := fillings_listed r place .help
    (show ∀ s text, s.listing? = some (.help, text) →
      (return Help.render (Text.words text)) = r.filling place s by
        intro s text hs; cases s <;> cases hs; rfl) members
  have customs := fillings_added r place members
  have questions := fillings_listed r place .consult
    (show ∀ s text, s.listing? = some (.consult, text) → (return text) = r.filling place s by
        intro s text hs; cases s <;> cases hs; rfl) members
  have kindByKind : commandKinds.flatMap (fun k => commandsOf k [] members) =
      commandsOf .run [] members ++ (commandsOf .verify [] members ++
        (commandsOf .refcat [] members ++ (commandsOf .lsp [] members ++
          (commandsOf .help [] members ++ (commandsOf .custom [] members ++
            commandsOf .consult [] members))))) := by
    simp [commandKinds]
  rw [ofSteps_eq_combined foldable, kindByKind]
  simp only [carryOut_append, ← runs, ← checks, ← references, ← queries, ← topics, ← customs,
    ← questions]
  unfold resolve combined
  simp only [bind_assoc, pure_bind, List.append_assoc]
  rfl

/-- In every turn that it is a member of, a step leaves what it is said to. -/
theorem leaves_filling (command : s.isAgentTurn = false) :
    s.Leaves fun r place => r.filling place s := by
  intro members foldable hs
  constructor
  · have steps := steps_commands [] foldable
    have hfilter : s ∈ members.filter fun s => !s.isAgentTurn :=
      List.mem_filter.mpr ⟨hs, by rw [command]; rfl⟩
    rw [← steps] at hfilter
    exact List.mem_map.mp hfilter
  · intro c hc hstep
    have order := kinds_perm [] members
    obtain ⟨earlier, later, hcs⟩ := List.append_of_mem (order.mem_iff.mpr hc)
    rw [hcs] at order
    refine ⟨earlier, later, order, fun r place => ?_⟩
    rw [resolve_ofSteps foldable, hcs, carryOut_append, carryOut, hstep]
    simp only [bind_assoc, pure_bind]

/-- Where the commands are carried out, each leaves one output under its mark. -/
theorem outputs_of_carryOut {cs : List Command} (distinct : (cs.map Command.mark).Nodup)
    {s t : RunState} {xs : List Exchange} {subs : List (Text × Text)}
    (h : (r.carryOut place cs).Reaches s xs (.ok subs) t) :
    ∃ out : Command → Text, subs = cs.map fun c => (c.mark, out c) := by
  induction cs generalizing s t xs subs with
  | nil =>
    obtain ⟨-, hsubs, -⟩ := Action.reaches_pure_iff.mp h
    exact ⟨fun _ => [], Except.ok.inj hsubs⟩
  | cons c cs ih =>
    rw [List.map_cons, List.nodup_cons] at distinct
    rw [carryOut] at h
    obtain ⟨_, _, output, u, -, -, h⟩ | ⟨_, he, -⟩ := Action.reaches_bind_iff.mp h
    · obtain ⟨_, _, rest, v, -, hrest, h⟩ | ⟨_, he, -⟩ := Action.reaches_bind_iff.mp h
      · obtain ⟨-, hsubs, -⟩ := Action.reaches_pure_iff.mp h
        obtain ⟨out, rfl⟩ := ih distinct.2 hrest
        -- No later command has this mark, so that its output can be told apart.
        refine ⟨fun d => if d.mark = c.mark then output else out d, ?_⟩
        have others : ∀ d ∈ cs, (d.mark, out d) =
            (d.mark, if d.mark = c.mark then output else out d) := by
          intro d hd
          have apart : d.mark ≠ c.mark := fun he => distinct.1 (he ▸ List.mem_map_of_mem hd)
          rw [if_neg apart]
        rw [List.map_congr_left others] at hsubs
        rw [Except.ok.inj hsubs, List.map_cons]
        simp
      · cases he
    · cases he

end Run

/-! ## Filling -/

namespace Step

theorem nodup_marks (before members : List Step) :
    ((commands before members).map Command.mark).Nodup := by
  rw [List.Nodup, List.pairwise_map]
  refine (marks_prefixFree before members).imp fun {c d} apart => ?_
  intro he
  exact apart.1 (he ▸ List.prefix_rfl)

end Step

namespace MergedPrompt

/-- What the marks and the outputs of a turn are to each other, where `members` are the steps
that the turn is made of. -/
structure FillsExactly (members : List Step) : Prop where
  /-- The text has a mark for each command, and the own texts between them. -/
  content : (ofSteps members).content = Text.unlines (partsBy Command.mark id [] members)
  /-- There is one command for each member that is not sent by itself. -/
  commands : (Step.commands [] members).map Command.step = members.filter fun s => !s.isAgentTurn
  /-- What the turn is resolved to are these marks, each once and with an output. -/
  resolved : ∀ (r : Run) (place : StepPlace) {s t : RunState} {xs : List Exchange}
    {subs : List (Text × Text)}, (r.resolve (ofSteps members) place).Reaches s xs (.ok subs) t →
      ∃ out : Command → Text, subs.Perm ((Step.commands [] members).map fun c => (c.mark, out c))
  /-- No mark begins with another one. -/
  prefixFree : (Step.commands [] members).Pairwise fun c d =>
    ¬c.mark <+: d.mark ∧ ¬d.mark <+: c.mark
  /-- Whatever the outputs are and in whatever order they are given, each takes the place of its
  own mark, and all else stays. -/
  filled : ∀ (out : Command → Text) {subs : List (Text × Text)},
    subs.Perm ((Step.commands [] members).map fun c => (c.mark, out c)) →
      fill subs (ofSteps members).content = Text.unlines (partsBy out id [] members)

/-- The marks of a turn are filled exactly, if the texts that it takes up hold no two opening
braces. -/
theorem fillsExactly {members : List Step} (foldable : ∀ s ∈ members, s.Foldable)
    (closed : ∀ s ∈ members, ¬openBraces <:+: s.ownText) : FillsExactly members where
  content := content_ofSteps foldable
  commands := steps_commands [] foldable
  resolved := by
    intro r place s t xs subs h
    have order := kinds_perm [] members
    rw [Run.resolve_ofSteps foldable] at h
    have distinct := (order.map Command.mark).nodup_iff.mpr (nodup_marks [] members)
    obtain ⟨out, rfl⟩ := Run.outputs_of_carryOut distinct h
    exact ⟨out, order.map _⟩
  prefixFree := marks_prefixFree [] members
  filled := by
    intro out subs h
    rw [content_ofSteps foldable]
    exact fill_partsBy closed h

/-- Two commands around a text: the outputs are given last first, and the first of them holds the
mark of the second command. -/
theorem outputs_are_not_read_again :
    fill [("\x7b\x7bRUN:1:b\x7d\x7d".toList, "B".toList),
        ("\x7b\x7bRUN:0:a\x7d\x7d".toList, "A \x7b\x7bRUN:1:b\x7d\x7d".toList)]
      (ofSteps [.run ⟨"a".toList, 0, none⟩ [] [], .prompt "and".toList,
        .run ⟨"b".toList, 0, none⟩ [] []]).content =
      "A \x7b\x7bRUN:1:b\x7d\x7d\nand\nB".toList := by
  have exact : FillsExactly [.run ⟨"a".toList, 0, none⟩ [] [], .prompt "and".toList,
      .run ⟨"b".toList, 0, none⟩ [] []] :=
    fillsExactly (by decide) (by decide)
  exact exact.filled
    (fun c => if c.index = 0 then "A \x7b\x7bRUN:1:b\x7d\x7d".toList else "B".toList) (.swap _ _ _)

end MergedPrompt

end ConversationFlow
