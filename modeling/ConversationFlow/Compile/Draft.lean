import ConversationFlow.Compile.Instruction

/-!
# Compilation

A draft is what the instructions seen so far amount to. At most one block is open;
it belongs to the last step. An included file may use the block that is open where
it is included, but leaves none open of its own.
-/

namespace ConversationFlow

/-! ## Included files

A conversation is read as one stream of instructions in which each INCLUDE is
replaced by the instructions of its file, between a mark where the file begins and
one where it ends. The files that are open form a stack of canonical locations, none
of which is opened again, so that the expansion ends wherever there are finitely many files.
-/

/-- Files as INCLUDE finds them: a path leads to the canonical location of a file, at which its
text is. Many paths may lead to one file, by links too, but equal paths lead to the same, and there
are only so many files. -/
structure Sources where
  locate : Path → Except FileError Location
  textAt : Location → Except FileError Text
  files : List Location
  locate_unique : ∀ {p q : Path} {l m : Location},
    locate p = .ok l → locate q = .ok m → p.parts = q.parts → m = l
  mem_files : ∀ {l : Location} {t : Text}, textAt l = .ok t → l ∈ files

namespace FileSystem

theorem mem_nodes_of_textAt {fs : FileSystem} {l : Location} {t : Text}
    (h : fs.textAt l = .ok t) : ∃ n ∈ fs.nodes, n.1 = l := by
  cases hf : fs.nodes.find? (fun n => n.1 == l) with
  | some n => exact ⟨n, List.mem_of_find?_eq_some hf, by simpa using List.find?_some hf⟩
  | none =>
    by_cases hs : l ∈ systemDirectories <;>
      simp [textAt, bytesAt, node?, hf, hs, bind, Except.bind] at h

/-- The files of a file system. -/
def sources (fs : FileSystem) : Sources where
  locate := fs.locate
  textAt := fs.textAt
  files := fs.nodes.map (·.1)
  locate_unique := locate_unique
  mem_files h := List.mem_map.mpr (mem_nodes_of_textAt h)

instance : Coe FileSystem Sources := ⟨sources⟩

end FileSystem

namespace IncludeStack

variable {α : Type} [BEq α]

/-- Opens a file. If it is open already, the answer is the chain from it to itself. -/
def push (stack : List α) (a : α) : Except (List α) (List α) :=
  if stack.any (· == a) then .error (stack.dropWhile (!· == a) ++ [a]) else .ok (stack ++ [a])

end IncludeStack

/-- An element of the expanded stream. -/
inductive Event where
  | instruction (line : SourceLine) (i : Instruction)
  | enter
  | leave
  | fail (e : CompileError)

namespace Sources

/-- The text of the file that a path leads to. -/
def readText (src : Sources) (p : Path) : Except FileError Text := do src.textAt (← src.locate p)

/-- The number of files whose locations are not on a stack. -/
def unopened (src : Sources) (stack : List Location) : Nat :=
  (src.files.filter fun l => !stack.contains l).length

theorem unopened_push_lt {src : Sources} {stack opened : List Location} {l : Location} {t : Text}
    (hp : IncludeStack.push stack l = .ok opened) (ht : src.textAt l = .ok t) :
    src.unopened opened < src.unopened stack := by
  unfold IncludeStack.push at hp
  split at hp
  · cases hp
  · next fresh =>
    obtain rfl : stack ++ [l] = opened := by simpa using hp
    have hfresh : l ∉ stack := by simpa using fresh
    have split : src.files.filter (fun m => !(stack ++ [l]).contains m)
        = (src.files.filter fun m => !stack.contains m).filter (fun m => m != l) := by
      rw [List.filter_filter]
      refine List.filter_congr fun m _ => ?_
      by_cases e : m = l <;> simp [e, bne]
    unfold unopened
    rw [split]
    refine List.length_filter_lt_length_iff_exists.2 ⟨l, ?_, by simp⟩
    simpa [List.mem_filter] using ⟨src.mem_files ht, hfresh⟩

end Sources

namespace Event

/-- The directory that the targets of INCLUDE start from. -/
def includeBase (file : Option Path) : Path := (file.bind Path.parent?).getD "."

/-- The path of an INCLUDE. -/
def includePath (file : Option Path) (target : Text) : Path :=
  (includeBase file).join ⟨target.dropWhile (· = '@')⟩

/-- The stream of directives of `file`, with the files open on the stack. -/
def ofDirectives (src : Sources) (registry : Registry) (stack : List Location)
    (file : Option Path) : List Directive → List Event
  | [] => []
  | d :: ds =>
    let line : SourceLine := ⟨file, d.line⟩
    match d.instruction file with
    | .error e => [.fail (.parse e)]
    | .ok (.includeFile target) =>
      let path := includePath file target
      match src.locate path with
      | .error _ => [.fail (.fileNotFound path (some line))]
      | .ok l =>
        match _hp : IncludeStack.push stack l with
        | .error cycle => [.fail (.parse (.includeCycle line (cycle.map Location.path)))]
        | .ok opened =>
          match _ht : src.textAt l with
          | .error e => [.fail (.io path e)]
          | .ok text =>
            .enter :: ofDirectives src registry opened (some path)
                (Directive.ofDocument registry text)
              ++ .leave :: ofDirectives src registry stack file ds
    | .ok i => .instruction line i :: ofDirectives src registry stack file ds
termination_by ds => (src.unopened stack, ds.length)
decreasing_by
  · exact Prod.Lex.left _ _ (Sources.unopened_push_lt _hp _ht)
  · exact Prod.Lex.right _ (by simp)
  · exact Prod.Lex.right _ (by simp)

end Event

/-! ## Drafts -/

/-- A block whose end has not been read. -/
structure OpenBlock where
  kind : BlockKind
  steps : List Step
  line : SourceLine

/-- A conversation being compiled. -/
structure Draft where
  settings : Settings := {}
  /-- Prologues and epilogues of included files. -/
  includedPrologues : List Text := []
  includedEpilogues : List Text := []
  steps : List Step := []
  block : Option OpenBlock := none
  /-- For each file being included, the line of the block that was open before it. -/
  entered : List (Option SourceLine) := []

/-- The settings and steps that a conversation compiles to. -/
structure Compiled where
  settings : Settings
  steps : List Step
  source : Option Path

namespace Draft

/-- The steps that the next step goes after. -/
def target (d : Draft) : List Step :=
  match d.block with
  | some b => b.steps
  | none => d.steps

def withTarget (d : Draft) (steps : List Step) : Draft :=
  match d.block with
  | some b => { d with block := some { b with steps } }
  | none => { d with steps }

def push (d : Draft) (s : Step) : Draft := d.withTarget (d.target ++ [s])

/-- A pause or a consultation: a step directly after ELIDE, else a point after the last
step outside a block. -/
def human (d : Draft) (consult : Bool) (message : Text) : Draft :=
  if d.target.getLast?.any Step.isElide then
    d.push (if consult then .consult message else .pause message)
  else
    let point : HumanPoint :=
      ⟨if d.steps.isEmpty then none else some (d.steps.length - 1), message⟩
    if consult then
      { d with settings := { d.settings with consultPoints := d.settings.consultPoints ++ [point] } }
    else
      { d with settings := { d.settings with pausePoints := d.settings.pausePoints ++ [point] } }

/-- Gives the command just before it its retries. -/
def retry (d : Draft) (line : SourceLine) (count : Nat) (prompt : Option Text) :
    Except ParseError Draft :=
  match d.target.getLast? with
  | some (.run c f s) =>
    let command : RunCommand :=
      { c with retries := count, retryPrompt := some (prompt.getD RunCommand.defaultRetryPrompt) }
    .ok (d.withTarget (d.target.dropLast ++ [.run command f s]))
  | _ => .error (.retryWithoutRun line)

def blockOf (kind : BlockKind) (s : Step) : List Step :=
  match kind with
  | .onFailure => s.blocks.1
  | .onSuccess => s.blocks.2

/-- Opens a block of the last step, which must be able to own it and have none of its kind. -/
def openBlock (d : Draft) (line : SourceLine) (kind : BlockKind) : Except ParseError Draft :=
  if d.block.isSome then .error (.nestedBlock line kind)
  else
    match d.steps.getLast? with
    | some owner =>
      if !owner.canOwnBlocks then .error (.blockWithoutRun line kind)
      else if !(blockOf kind owner).isEmpty then .error (.duplicateBlock line kind)
      else .ok { d with block := some ⟨kind, [], line⟩ }
    | none => .error (.blockWithoutRun line kind)

/-- A step with a block of its own. -/
def attach (kind : BlockKind) (block : List Step) : Step → Step
  | .run c f s =>
    match kind with
    | .onFailure => .run c block s
    | .onSuccess => .run c f block
  | .verify c f s =>
    match kind with
    | .onFailure => .verify c block s
    | .onSuccess => .verify c f block
  | s => s

/-- Gives the open block to the last step. -/
def closeBlock (d : Draft) (line : SourceLine) : Except ParseError Draft :=
  match d.block with
  | none => .error (.endWithoutBlock line)
  | some b =>
    match d.steps.getLast? with
    | some owner =>
      .ok { d with steps := d.steps.dropLast ++ [attach b.kind b.steps owner], block := none }
    | none => .ok { d with block := none }

/-- Carries out one instruction. INCLUDE has no effect of its own. -/
def apply (d : Draft) (line : SourceLine) : Instruction → Except ParseError Draft
  | .configure change => .ok { d with settings := change d.settings }
  | .prologue text =>
    if d.entered.isEmpty then
      .ok { d with settings := { d.settings with prologues := d.settings.prologues ++ [text] } }
    else .ok { d with includedPrologues := d.includedPrologues ++ [text] }
  | .epilogue text =>
    if d.entered.isEmpty then
      .ok { d with settings := { d.settings with epilogues := d.settings.epilogues ++ [text] } }
    else .ok { d with includedEpilogues := d.includedEpilogues ++ [text] }
  | .step s change => .ok ({ d with settings := change d.settings }.push s)
  | .retry count prompt => d.retry line count prompt
  | .human consult message => .ok (d.human consult message)
  | .openBlock kind => d.openBlock line kind
  | .closeBlock => d.closeBlock line
  | .includeFile _ => .ok d

/-- Carries out one event. Where a file ends, no block may be open but the one that was open
where it began. -/
def feed (d : Draft) : Event → Except CompileError Draft
  | .instruction line i =>
    match d.apply line i with
    | .ok d => .ok d
    | .error e => .error (.parse e)
  | .enter => .ok { d with entered := d.block.map (·.line) :: d.entered }
  | .leave =>
    match d.block with
    | some b =>
      if d.entered.headD none == some b.line then .ok { d with entered := d.entered.tail }
      else .error (.parse (.unclosedBlock b.line b.kind))
    | none => .ok { d with entered := d.entered.tail }
  | .fail e => .error e

/-- Carries out a stream of events up to the first error. -/
def run (d : Draft) (events : List Event) : Except CompileError Draft := events.foldlM feed d

/-- The finished conversation: the prologues and epilogues of included files come first. -/
def finish (d : Draft) (source : Option Path) : Except CompileError Compiled :=
  match d.block with
  | some b => .error (.parse (.unclosedBlock b.line b.kind))
  | none =>
    .ok {
      settings := { d.settings with
        prologues := d.includedPrologues ++ d.settings.prologues
        epilogues := d.includedEpilogues ++ d.settings.epilogues }
      steps := d.steps
      source }

end Draft

namespace Compiled

/-- Compiles the directives of a text. -/
def ofEvents (source : Option Path) (events : List Event) : Except CompileError Compiled := do
  (← Draft.run {} events).finish source

/-- Compiles a text that has no file; its includes start from the current directory. -/
def ofText (src : Sources) (registry : Registry) (text : Text) : Except CompileError Compiled :=
  ofEvents none (Event.ofDirectives src registry [] none (Directive.ofDocument registry text))

/-- Compiles a file. -/
def ofFile (src : Sources) (registry : Registry) (path : Path) : Except CompileError Compiled :=
  match src.locate path with
  | .error _ => .error (.fileNotFound path none)
  | .ok l =>
    match src.textAt l with
    | .error e => .error (.io path e)
    | .ok text =>
      ofEvents (some path)
        (Event.ofDirectives src registry [l] (some path) (Directive.ofDocument registry text))

end Compiled

end ConversationFlow
