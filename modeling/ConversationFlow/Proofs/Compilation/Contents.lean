import ConversationFlow.Proofs.Compilation.Points
import ConversationFlow.Proofs.Directive.Lexing
import ConversationFlow.Proofs.Value.Options

/-!
# What compiled conversations are made of

The values of directives come from lines and from texts, and what the compiler makes of them keeps their
form: single lines without blanks at their ends, texts without a blank last line, words without
line feeds, counts that fit in a word. A block holds no blocks, and a pause or a
consultation that is a step stands directly after ELIDE. That the values are also in order for
the ones who use them is not said.
-/

namespace ConversationFlow

/-! ## Values -/

namespace Directive

/-- A text value that is not blank. -/
structure IsPassage (v : Text) : Prop extends IsBlock v where
  written : Text.allBlank v = false

end Directive

namespace Instruction

theorem required_ok {value v : Text} (h : required value = .ok v) :
    v = value ∧ Text.allBlank value = false := by
  unfold required at h
  split at h
  · cases h
  · next hb =>
    cases h
    exact ⟨rfl, by simpa using hb⟩

theorem isValue_of_required {value v : Text} (hv : Text.IsLine value)
    (h : required value = .ok v) : Text.IsValue v := by
  obtain ⟨rfl, hb⟩ := required_ok h
  refine ⟨hv, ?_⟩
  rintro rfl
  cases hb

theorem isPassage_of_required {value v : Text} (hv : Directive.IsBlock value)
    (h : required value = .ok v) : Directive.IsPassage v := by
  obtain ⟨rfl, hb⟩ := required_ok h
  exact ⟨hv, hb⟩

theorem refuse_ok {α : Type} {x : Except ValueError α} {a : α} (h : refuse x = .ok a) :
    x = .ok a := by
  cases x with
  | ok b =>
    cases h
    rfl
  | error e => cases h

theorem patterns_ok {value : Text} {ws : List Text} (h : patterns value = .ok ws) :
    Words.split? value = some ws ∧ ws ≠ [] := by
  obtain ⟨all, hs, h⟩ := exists_of_bind_ok h
  split at h
  · cases h
  · next hne =>
    cases h
    exact ⟨Words.split_ok_iff.mp (refuse_ok hs), by simpa using hne⟩

theorem single_of_patterns {value : Text} {ws : List Text} (hv : Text.IsLine value)
    (h : patterns value = .ok ws) : ws ≠ [] ∧ ∀ w ∈ ws, '\n' ∉ w := by
  obtain ⟨hs, hne⟩ := patterns_ok h
  exact ⟨hne, fun w hw hc => hv.single (Words.mem_of_split hs hw hc)⟩

/-- A tag that names a help topic. -/
structure IsTopic (t : Text) : Prop where
  tag : IsTag t
  known : (Help.find? t).isNone = false

theorem isTopic_of_helpTopics {value : Text} {ts : List Text} (h : helpTopics value = .ok ts) :
    ts ≠ [] ∧ ∀ t ∈ ts, IsTopic t := by
  unfold helpTopics at h
  dsimp only at h
  split at h
  · cases h
  · next hne =>
    split at h
    · cases h
    · next hall =>
      cases h
      refine ⟨by simpa using hne, fun t ht => ⟨(Text.isPiece_of_mem ht).1, ?_⟩⟩
      have hknown := List.find?_eq_none.mp hall t ht
      rwa [Bool.not_eq_true] at hknown

theorem isVariable_of_assignments {value : Text} {es : List (Text × Text)}
    (hv : Text.IsLine value) (h : assignments value = .ok es) : ∀ e ∈ es, IsVariable e := by
  obtain ⟨ws, hs, h⟩ := exists_of_bind_ok h
  split at h
  · cases h
  · refine forall_of_mapM_ok (fun w hw e he => ?_) h
    unfold assignment at he
    split at he
    · next ha =>
      cases he
      exact isVariable_of_split
        (fun hc => hv.single (Words.mem_of_split (Words.split_ok_iff.mp hs) hw hc)) ha
    · cases he

end Instruction

/-! ## Settings -/

/-- What the settings hold has the form that directives give it. -/
structure Settings.WellFormed (s : Settings) : Prop where
  model : ∀ v ∈ s.model, Text.IsValue v
  adapter : ∀ v ∈ s.adapter, Text.IsValue v
  mode : ∀ v ∈ s.mode, Text.IsValue v
  cwd : ∀ v ∈ s.cwd, Text.IsValue v
  modelPolicy : ∀ v ∈ s.modelPolicy, Text.IsValue v
  outputFormat : ∀ v ∈ s.outputFormat, Text.IsValue v
  outputFile : ∀ v ∈ s.outputFile, Text.IsValue v
  outputDir : ∀ v ∈ s.outputDir, Text.IsValue v
  sessionName : ∀ v ∈ s.sessionName, Text.IsValue v
  eventLog : ∀ v ∈ s.eventLog, Text.IsValue v
  runCwd : ∀ v ∈ s.run.cwd, Text.IsValue v
  onContextLimitPrompt : ∀ v ∈ s.onContextLimitPrompt, Directive.IsPassage v
  compactSummary : ∀ v ∈ s.compactSummary, Directive.IsPassage v
  continuationPrompt : ∀ v ∈ s.continuationPrompt, Directive.IsPassage v
  prologues : ∀ v ∈ s.prologues, Directive.IsPassage v
  epilogues : ∀ v ∈ s.epilogues, Directive.IsPassage v
  headers : ∀ v ∈ s.headers, Directive.IsPassage v
  footers : ∀ v ∈ s.footers, Directive.IsPassage v
  context : ∀ w ∈ s.context, '\n' ∉ w
  contextOptional : ∀ w ∈ s.contextOptional, '\n' ∉ w
  contextExclude : ∀ w ∈ s.contextExclude, '\n' ∉ w
  allowFiles : ∀ w ∈ s.allowFiles, '\n' ∉ w
  denyFiles : ∀ w ∈ s.denyFiles, '\n' ∉ w
  allowDirs : ∀ w ∈ s.allowDirs, '\n' ∉ w
  denyDirs : ∀ w ∈ s.denyDirs, '\n' ∉ w
  requirements : ∀ w ∈ s.requirements, '\n' ∉ w
  modelRequirements : ∀ w ∈ s.modelRequirements, '\n' ∉ w
  modelPreferences : ∀ w ∈ s.modelPreferences, '\n' ∉ w
  helpTopics : ∀ t ∈ s.helpTopics, Instruction.IsTopic t
  compactPreserve : ∀ t ∈ s.compactPreserve, Instruction.IsTag t
  maxCycles : ∀ n ∈ s.maxCycles, n ≠ 0 ∧ n < wordSize 32
  outputLimit : ∀ n ∈ s.run.outputLimit, n < wordSize 32
  verifyLimit : ∀ n ∈ s.verify.limit, n < wordSize 32
  consultTimeout : ∀ d ∈ s.consultTimeout, d.IsWhole
  runTimeout : s.run.timeout.IsWhole
  env : ∀ e ∈ s.run.env.entries, Instruction.IsVariable e

theorem Settings.wellFormed_default : Settings.WellFormed {} := by
  constructor <;> first | exact fun _ h => nomatch h | exact Duration.isWhole_ofSeconds (by decide)

/-! ## Steps -/

structure RunCommand.WellFormed (c : RunCommand) : Prop where
  command : Text.IsValue c.command
  retries : c.retries < wordSize 32
  asked : 0 < c.retries → c.retryPrompt.isSome = true
  prompt : ∀ p ∈ c.retryPrompt, '\n' ∉ p

def Check.WellFormed : Check → Prop
  | .named kind options => '\n' ∉ kind ∧ Instruction.OnLine options
  | .trace source target => Instruction.IsArrow source target
  | .coverage c => Instruction.IsCoverage c

namespace Step

/-- A step that waits for a human. -/
def isHuman : Step → Bool
  | .consult _ | .pause _ => true
  | _ => false

/-- What a step holds beside its blocks has the form that directives give it. -/
def HeadWellFormed (registry : Registry) : Step → Prop
  | .prompt text => Directive.IsPassage text
  | .run c _ _ => c.WellFormed
  | .checkpoint name => ∀ v ∈ name, Text.IsValue v
  | .compact preserve => ∀ t ∈ preserve, Instruction.IsTag t
  | .newConversation | .elide => True
  | .verify check _ _ => check.WellFormed
  | .refcat refs => refs ≠ [] ∧ ∀ w ∈ refs, '\n' ∉ w
  | .lsp query options => '\n' ∉ query ∧ Instruction.OnLine options
  | .helpInline topics mergeWithNext =>
    topics ≠ [] ∧ (∀ t ∈ topics, Instruction.IsTopic t) ∧ mergeWithNext = true
  | .custom name content => Directive.IsName registry (.custom name) ∧
      Directive.HasForm registry (.custom name) content
  | .consult text | .pause text => Directive.IsBlock text
  | .merged _ => False

/-- Every step that waits for a human stands directly after ELIDE; `linked` says whether an ELIDE
stands before the first. -/
def Linked (linked : Bool) : List Step → Prop
  | [] => True
  | s :: rest => (s.isHuman = true → linked = true) ∧ Linked s.isElide rest

/-- Steps that all have a property, with the steps for humans linked. -/
structure Formed (P : Step → Prop) (steps : List Step) : Prop where
  each : ∀ s ∈ steps, P s
  linked : Linked false steps

/-- A step of a block. -/
structure InBlock (registry : Registry) (s : Step) : Prop where
  head : s.HeadWellFormed registry
  bare : s.blocks = ([], [])

/-- A step outside blocks. -/
structure WellFormed (registry : Registry) (s : Step) : Prop where
  head : s.HeadWellFormed registry
  onFailure : Formed (InBlock registry) s.blocks.1
  onSuccess : Formed (InBlock registry) s.blocks.2

variable {registry : Registry} {P : Step → Prop}

theorem formed_nil : Formed P [] := ⟨(fun _ h => by cases h), trivial⟩

theorem InBlock.wellFormed {s : Step} (h : s.InBlock registry) : s.WellFormed registry := by
  refine ⟨h.head, ?_, ?_⟩ <;> rw [h.bare] <;> exact formed_nil

theorem linked_concat {linked : Bool} {steps : List Step} {s : Step} :
    Linked linked (steps ++ [s]) ↔
      Linked linked steps ∧ (s.isHuman = true → (steps.getLast?.map isElide).getD linked = true) := by
  induction steps generalizing linked with
  | nil => simp [Linked]
  | cons t rest ih =>
    rw [List.cons_append, Linked, Linked, ih, and_assoc, List.getLast?_cons]
    cases rest.getLast? <;> rfl

/-- A step for a human in linked steps has an ELIDE directly before it. -/
theorem Linked.elide_before {linked : Bool} {before after : List Step} {s : Step}
    (h : Linked linked (before ++ s :: after)) (hs : s.isHuman = true) :
    before.getLast?.elim linked isElide = true := by
  induction before generalizing linked with
  | nil => exact h.1 hs
  | cons t before ih =>
    have ht := ih h.2
    rw [List.getLast?_cons]
    cases hl : before.getLast? <;> rw [hl] at ht <;> exact ht

theorem Formed.push {steps : List Step} {s : Step} (h : Formed P steps) (hs : P s)
    (hl : s.isHuman = true → steps.getLast?.any isElide = true) : Formed P (steps ++ [s]) := by
  constructor
  · intro t ht
    rcases List.mem_append.mp ht with ht | ht
    · exact h.each t ht
    · exact List.mem_singleton.mp ht ▸ hs
  · refine linked_concat.mpr ⟨h.linked, fun hh => ?_⟩
    have he := hl hh
    cases hlast : steps.getLast? with
    | none =>
      rw [hlast] at he
      cases he
    | some t =>
      rw [hlast] at he
      exact he

theorem Formed.replaceLast {before : List Step} {s t : Step} (h : Formed P (before ++ [s]))
    (ht : P t) (hh : t.isHuman = true → s.isHuman = true) : Formed P (before ++ [t]) := by
  obtain ⟨hlinked, hlast⟩ := linked_concat.mp h.linked
  constructor
  · intro u hu
    rcases List.mem_append.mp hu with hu | hu
    · exact h.each u (List.mem_append_left _ hu)
    · exact List.mem_singleton.mp hu ▸ ht
  · exact linked_concat.mpr ⟨hlinked, fun hu => hlast (hh hu)⟩

end Step

/-! ## Instructions -/

/-- What an instruction adds has the form that directives give it. -/
def Instruction.WellFormed (registry : Registry) : Instruction → Prop
  | .configure change => ∀ s : Settings, s.WellFormed → (change s).WellFormed
  | .prologue text | .epilogue text => Directive.IsPassage text
  | .step s change => s.InBlock registry ∧ s.isHuman = false ∧
      ∀ s : Settings, s.WellFormed → (change s).WellFormed
  | .retry count prompt => count < wordSize 32 ∧ ∀ p ∈ prompt, '\n' ∉ p
  | .human _ message => Directive.IsBlock message
  | _ => True

namespace Instruction

variable {registry : Registry} {value : Text}

theorem forall_mem_some {α : Type} {p : α → Prop} {a : α} (h : p a) : ∀ b ∈ some a, p b := by
  intro b hb
  cases hb
  exact h

theorem reads_value (hv : Text.IsLine value) {change : Text → Settings → Settings}
    (h : ∀ v, Text.IsValue v → ∀ s : Settings, s.WellFormed → (change v s).WellFormed) :
    Reads (WellFormed registry) (required value >>= fun v => .ok (.configure (change v))) :=
  reads_bind fun v hr => reads_ok (h v (isValue_of_required hv hr))

theorem reads_passage (hv : Directive.IsBlock value) {change : Text → Settings → Settings}
    (h : ∀ v, Directive.IsPassage v → ∀ s : Settings, s.WellFormed → (change v s).WellFormed) :
    Reads (WellFormed registry) (required value >>= fun v => .ok (.configure (change v))) :=
  reads_bind fun v hr => reads_ok (h v (isPassage_of_required hv hr))

theorem reads_words (hv : Text.IsLine value) {change : List Text → Settings → Settings}
    (h : ∀ ws : List Text, (∀ w ∈ ws, '\n' ∉ w) → ∀ s : Settings, s.WellFormed →
      (change ws s).WellFormed) :
    Reads (WellFormed registry) (patterns value >>= fun ws => .ok (.configure (change ws))) :=
  reads_bind fun ws hr => reads_ok (h ws (single_of_patterns hv hr).2)

theorem reads_any {α : Type} {x : Except Refusal α} {change : α → Settings → Settings}
    (h : ∀ a, x = .ok a → ∀ s : Settings, s.WellFormed → (change a s).WellFormed) :
    Reads (WellFormed registry) (x >>= fun a => .ok (.configure (change a))) :=
  reads_bind fun a hr => reads_ok (h a hr)

theorem reads_step {α : Type} {x : Except Refusal α} {step : α → Step}
    (h : ∀ a, x = .ok a → (step a).InBlock registry ∧ (step a).isHuman = false) :
    Reads (WellFormed registry) (x >>= fun a => .ok (.step (step a) id)) :=
  reads_bind fun a hr => reads_ok ⟨(h a hr).1, (h a hr).2, fun _ hs => hs⟩

theorem atLeastOne_ok {n m : Nat} (h : atLeastOne n = .ok m) : m = n ∧ n ≠ 0 := by
  unfold atLeastOne at h
  split at h
  · cases h
  · next hn =>
    cases h
    exact ⟨rfl, hn⟩

theorem reads_retryOf (hv : Text.IsLine value) : Reads (WellFormed registry) (retryOf value) := by
  refine reads_bind fun ws hr => ?_
  have hs := Words.split_ok_iff.mp (refuse_ok hr)
  cases ws with
  | nil => intro i hi; cases hi
  | cons count rest =>
    refine reads_bind fun n hn => reads_ok ⟨Count.lt_of_read (refuse_ok hn), fun p hp => ?_⟩
    have hrest : ∀ w ∈ rest, '\n' ∉ w :=
      fun w hw hc => hv.single (Words.mem_of_split hs (List.mem_cons_of_mem count hw) hc)
    split at hp
    · cases hp
    · cases hp
      intro hc
      obtain hc | ⟨w, hw, hc⟩ := Text.mem_join hc
      · exact absurd hc (by decide)
      · exact hrest w hw hc

/-- Every reading of a keyword's value keeps the form of what is read. -/
theorem reads_wellFormed_ofKeyword {k : Keyword}
    (hv : Directive.HasForm registry (.builtin k) value) :
    Reads (WellFormed registry) (ofKeyword k value) := by
  have line (hk : k.takesText = false) : Text.IsLine value := by
    have ht : Directive.DirectiveName.takesText registry (.builtin k) = false := hk
    rwa [Directive.HasForm, ht, if_neg Bool.false_ne_true] at hv
  have block (hk : k.takesText = true) : Directive.IsBlock value := by
    have ht : Directive.DirectiveName.takesText registry (.builtin k) = true := hk
    rwa [Directive.HasForm, ht, if_pos rfl] at hv
  clear hv
  have option {α : Type} {p : α → Prop} {a : α} (h : p a) : ∀ b ∈ some a, p b := forall_mem_some h
  have more {α : Type} {p : α → Prop} {as bs : List α} (ha : ∀ a ∈ as, p a) (hb : ∀ b ∈ bs, p b) :
      ∀ a ∈ as ++ bs, p a := List.forall_mem_append.mpr ⟨ha, hb⟩
  have one {α : Type} {p : α → Prop} {as : List α} {b : α} (ha : ∀ a ∈ as, p a) (hb : p b) :
      ∀ a ∈ as ++ [b], p a := more ha (List.forall_mem_singleton.mpr hb)
  cases k with
  | model => exact reads_value (line rfl) fun v hv s h => { h with model := option hv }
  | adapter => exact reads_value (line rfl) fun v hv s h => { h with adapter := option hv }
  | mode => exact reads_value (line rfl) fun v hv s h => { h with mode := option hv }
  | cwd => exact reads_value (line rfl) fun v hv s h => { h with cwd := option hv }
  | modelPolicy => exact reads_value (line rfl) fun v hv s h => { h with modelPolicy := option hv }
  | outputFormat => exact reads_value (line rfl) fun v hv s h => { h with outputFormat := option hv }
  | outputFile => exact reads_value (line rfl) fun v hv s h => { h with outputFile := option hv }
  | outputDir => exact reads_value (line rfl) fun v hv s h => { h with outputDir := option hv }
  | sessionName => exact reads_value (line rfl) fun v hv s h => { h with sessionName := option hv }
  | eventLog => exact reads_value (line rfl) fun v hv s h => { h with eventLog := option hv }
  | runCwd => exact reads_value (line rfl) fun v hv s h => { h with runCwd := option hv }
  | onContextLimitPrompt =>
    exact reads_passage (block rfl) fun v hv s h => { h with onContextLimitPrompt := option hv }
  | compactSummary =>
    exact reads_passage (block rfl) fun v hv s h => { h with compactSummary := option hv }
  | continuationPrompt =>
    exact reads_passage (block rfl) fun v hv s h => { h with continuationPrompt := option hv }
  | header => exact reads_passage (block rfl) fun v hv s h => { h with headers := one h.headers hv }
  | footer => exact reads_passage (block rfl) fun v hv s h => { h with footers := one h.footers hv }
  | prologue | epilogue =>
    exact reads_bind fun v hr => reads_ok (isPassage_of_required (block rfl) hr)
  | context =>
    exact reads_words (line rfl) fun ws hw s h => { h with context := more h.context hw }
  | contextOptional =>
    exact reads_words (line rfl) fun ws hw s h =>
      { h with contextOptional := more h.contextOptional hw }
  | contextExclude =>
    exact reads_words (line rfl) fun ws hw s h =>
      { h with contextExclude := more h.contextExclude hw }
  | allowFiles =>
    exact reads_words (line rfl) fun ws hw s h => { h with allowFiles := more h.allowFiles hw }
  | denyFiles =>
    exact reads_words (line rfl) fun ws hw s h => { h with denyFiles := more h.denyFiles hw }
  | allowDir =>
    exact reads_words (line rfl) fun ws hw s h => { h with allowDirs := more h.allowDirs hw }
  | denyDir =>
    exact reads_words (line rfl) fun ws hw s h => { h with denyDirs := more h.denyDirs hw }
  | require =>
    exact reads_words (line rfl) fun ws hw s h => { h with requirements := more h.requirements hw }
  | modelRequires =>
    exact reads_words (line rfl) fun ws hw s h =>
      { h with modelRequirements := more h.modelRequirements hw }
  | modelPrefers =>
    exact reads_words (line rfl) fun ws hw s h =>
      { h with modelPreferences := more h.modelPreferences hw }
  | help =>
    exact reads_any fun ts hr s h =>
      { h with helpTopics := more h.helpTopics (isTopic_of_helpTopics hr).2 }
  | compactPreserve =>
    exact reads_ok fun s h =>
      { h with compactPreserve := more h.compactPreserve fun t ht => (Text.isPiece_of_mem ht).1 }
  | maxCycles =>
    refine reads_any fun n hr s h => { h with maxCycles := option ?_ }
    obtain ⟨m, hm, hn⟩ := exists_of_bind_ok (refuse_ok hr)
    obtain ⟨rfl, hne⟩ := atLeastOne_ok hn
    exact ⟨hne, Count.lt_of_read hm⟩
  | runOutputLimit =>
    exact reads_any fun n hr s h => { h with outputLimit := option (Count.lt_of_read (refuse_ok hr)) }
  | verifyLimit =>
    exact reads_any fun n hr s h => { h with verifyLimit := option (Count.lt_of_read (refuse_ok hr)) }
  | consultTimeout =>
    exact reads_any fun d hr s h =>
      { h with consultTimeout := option (Duration.isWhole_of_read (refuse_ok hr)) }
  | runTimeout =>
    exact reads_any fun d hr s h => { h with runTimeout := Duration.isWhole_of_read (refuse_ok hr) }
  | runEnv =>
    refine reads_any fun es hr s h => { h with env := fun e he => ?_ }
    rcases mem_entries_insertAll he with he | he
    · exact h.env e he
    · exact isVariable_of_assignments (line rfl) (refuse_ok hr) e he
  | sessionMode | contextLimit | onContextLimit | compactionMin | compactionThreshold | compactionMax
  | validationMode | infiniteSessions | allowShell | runOnError | runOutput | verifyOnError
  | verifyOutput => exact reads_any fun _ _ s h => { h with }
  | prompt => exact reads_step fun v hr => ⟨⟨isPassage_of_required (block rfl) hr, rfl⟩, rfl⟩
  | run =>
    refine reads_step fun v hr => ⟨⟨?_, rfl⟩, rfl⟩
    exact ⟨isValue_of_required (line rfl) hr, show 0 < wordSize 32 by decide,
      fun h => absurd h (Nat.lt_irrefl 0), fun p hp => by cases hp⟩
  | runRetry => exact reads_retryOf (line rfl)
  | checkpoint =>
    refine reads_ok ⟨⟨fun v hv => ?_, rfl⟩, rfl, fun _ h => h⟩
    split at hv
    · cases hv
    · next hne =>
      cases hv
      exact ⟨Text.isLine_trim (line rfl).single, by simpa using hne⟩
  | compact =>
    exact reads_ok ⟨⟨fun t ht => (Text.isPiece_of_mem ht).1, rfl⟩, rfl, fun _ h => h⟩
  | newConversation | elide => exact reads_ok ⟨⟨trivial, rfl⟩, rfl, fun _ h => h⟩
  | verify =>
    refine reads_step fun check hr => ⟨⟨?_, rfl⟩, rfl⟩
    obtain ⟨⟨ws, options⟩, hs, he⟩ := exists_of_bind_ok (refuse_ok hr)
    cases he
    obtain ⟨hws, ho⟩ := splitOptions_onLine (line rfl).single hs
    refine ⟨?_, ho⟩
    cases ws with
    | nil => exact show '\n' ∉ String.toList "all" by decide
    | cons w ws => exact hws w List.mem_cons_self
  | verifyTrace =>
    refine reads_bind fun lr hr => ?_
    obtain ⟨source, target⟩ := lr
    exact reads_ok ⟨⟨isArrow_of_traceCheck (line rfl).single (refuse_ok hr), rfl⟩, rfl,
      fun s h => { h with }⟩
  | verifyCoverage =>
    exact reads_step fun c hr => ⟨⟨isCoverage_of_coverageCheck (refuse_ok hr), rfl⟩, rfl⟩
  | refcat =>
    exact reads_bind fun refs hr =>
      reads_ok ⟨⟨single_of_patterns (line rfl) hr, rfl⟩, rfl, fun s h => { h with }⟩
  | lsp =>
    refine reads_bind fun qo hr => ?_
    obtain ⟨q, options⟩ := qo
    obtain ⟨⟨ws, options'⟩, hs, he⟩ := exists_of_bind_ok (refuse_ok hr)
    dsimp only at he
    split at he
    · cases he
    · cases he
      obtain ⟨hws, ho⟩ := splitOptions_onLine (line rfl).single hs
      refine reads_ok ⟨⟨⟨fun hc => ?_, ho⟩, rfl⟩, rfl, fun s h => { h with }⟩
      obtain hc | ⟨w, hw, hc⟩ := Text.mem_join hc
      · exact absurd hc (by decide)
      · exact hws w hw hc
  | helpInline =>
    refine reads_step fun ts hr => ⟨⟨?_, rfl⟩, rfl⟩
    obtain ⟨hne, hall⟩ := isTopic_of_helpTopics hr
    exact ⟨hne, hall, rfl⟩
  | pause | consult => exact reads_ok (block rfl)
  | onFailure | onSuccess | endBlock => exact reads_ok trivial
  | includeFile => exact reads_bind fun _ _ => reads_ok trivial

end Instruction

/-- What a directive of a document says is of the form that directives give. -/
theorem Directive.IsLexed.instruction {registry : Registry} {d : Directive} {file : Option Path}
    {i : Instruction} (hd : d.IsLexed registry) (h : d.instruction file = .ok i) :
    i.WellFormed registry := by
  refine d.instruction_reads (fun name hn => ⟨⟨?_, rfl⟩, rfl, fun _ h => h⟩) (fun k hk => ?_) h
  · change Directive.IsName registry (.custom name) ∧
      Directive.HasForm registry (.custom name) d.value
    rw [← hn]
    exact ⟨hd.name, hd.value⟩
  · have hv := hd.value
    rw [hk] at hv
    exact Instruction.reads_wellFormed_ofKeyword hv

theorem Event.wellFormed_of_mem {src : Sources} {registry : Registry} {stack : List Location}
    {file : Option Path} {text : Text} {line : SourceLine} {i : Instruction}
    (h : .instruction line i ∈ ofDirectives src registry stack file
      (Directive.ofDocument registry text)) : i.WellFormed registry := by
  obtain ⟨origin, d, hd, hm⟩ := instruction_of_mem h
  have hlexed : d.IsLexed registry := by
    rcases hm with hm | ⟨text, hm⟩ <;> exact Directive.ofDocument_isLexed hm
  exact hlexed.instruction hd

end ConversationFlow
