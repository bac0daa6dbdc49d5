import ConversationFlow.Proofs.Compilation.Instructions
import ConversationFlow.Proofs.Directive.Layout

/-!
# Compilation without lines

The lines of a document show in errors and mark the block that is open, and nothing that a
document without INCLUDE compiles to depends on them. `Draft.carryAll` compiles clauses, which
have no lines, and answers nothing where the compiler answers with an error.
-/

namespace ConversationFlow

open Directive (Clause clause)

/-- The line of a clause. -/
def SourceLine.nowhere : SourceLine := ⟨none, 0⟩

/-! ## INCLUDE -/

/-- The instruction reads no file. -/
def Instruction.ReadsNoFile (i : Instruction) : Prop := ∀ target, i ≠ .includeFile target

theorem Directive.instruction_readsNoFile {d : Directive} {file : Option Path} {i : Instruction}
    (hd : d.name ≠ .builtin .includeFile) (h : d.instruction file = .ok i) : i.ReadsNoFile := by
  rintro target rfl
  exact hd (instruction_saidBy h)

/-! ## Clauses -/

namespace Draft

/-- The draft without the line of its open block. -/
def unplaced (d : Draft) : Draft :=
  { d with block := d.block.map fun b => { b with line := .nowhere } }

/-- Carries out one clause, if it is in order. -/
def carry (d : Draft) (c : Clause) : Option Draft :=
  (Directive.instruction none ⟨c.1, c.2, 0⟩).toOption.bind fun i => (d.apply .nowhere i).toOption

/-- Carries out clauses, if all of them are in order. -/
def carryAll (d : Draft) (cs : List Clause) : Option Draft := cs.foldlM carry d

theorem carryAll_nil (d : Draft) : d.carryAll [] = some d := rfl

theorem carryAll_cons (d : Draft) (c : Clause) (cs : List Clause) :
    d.carryAll (c :: cs) = (d.carry c).bind (carryAll · cs) := rfl

theorem carryAll_append (d : Draft) (cs ds : List Clause) :
    d.carryAll (cs ++ ds) = (d.carryAll cs).bind (carryAll · ds) := List.foldlM_append

theorem carryAll_singleton (d : Draft) (c : Clause) : d.carryAll [c] = d.carry c := by
  rw [carryAll_cons]
  exact Option.bind_fun_some _

variable {d : Draft}

/-! ## Lines do not matter -/

theorem unplaced_target (d : Draft) : d.unplaced.target = d.target := by
  unfold target unplaced
  cases d.block <;> rfl

theorem unplaced_withTarget (d : Draft) (steps : List Step) :
    d.unplaced.withTarget steps = (d.withTarget steps).unplaced := by
  unfold withTarget unplaced
  cases h : d.block with
  | none => simp
  | some b => rfl

theorem unplaced_push (d : Draft) (s : Step) : d.unplaced.push s = (d.push s).unplaced := by
  rw [push, unplaced_target, unplaced_withTarget, push]

theorem unplaced_human (d : Draft) (consult : Bool) (message : Text) :
    d.unplaced.human consult message = (d.human consult message).unplaced := by
  unfold human
  rw [unplaced_target, unplaced_push]
  split
  · rfl
  · cases consult <;> rfl

theorem unplaced_retry (d : Draft) (line : SourceLine) (count : Nat) (prompt : Option Text) :
    (d.retry line count prompt).toOption.map unplaced =
      (d.unplaced.retry .nowhere count prompt).toOption := by
  unfold retry
  rw [unplaced_target]
  split
  · dsimp only
    rw [unplaced_withTarget]
    rfl
  · rfl

theorem unplaced_openBlock (d : Draft) (line : SourceLine) (kind : BlockKind) :
    (d.openBlock line kind).toOption.map unplaced =
      (d.unplaced.openBlock .nowhere kind).toOption := by
  unfold openBlock
  have hb : d.unplaced.block.isSome = d.block.isSome := by
    unfold unplaced
    rw [Option.isSome_map]
  have hs : d.unplaced.steps = d.steps := rfl
  rw [hb, hs]
  split
  · rfl
  · split
    · split
      · rfl
      · split <;> rfl
    · rfl

theorem unplaced_closeBlock (d : Draft) (line : SourceLine) :
    (d.closeBlock line).toOption.map unplaced = (d.unplaced.closeBlock .nowhere).toOption := by
  unfold closeBlock
  have hs : d.unplaced.steps = d.steps := rfl
  have hb : d.unplaced.block = d.block.map fun b => { b with line := .nowhere } := rfl
  rw [hb, hs]
  cases d.block with
  | none => rfl
  | some b =>
    dsimp only [Option.map_some]
    split <;> rfl

/-- What an instruction makes of a draft does not depend on lines. -/
theorem unplaced_apply (d : Draft) (line : SourceLine) (i : Instruction) :
    (d.apply line i).toOption.map unplaced = (d.unplaced.apply .nowhere i).toOption := by
  cases i with
  | configure change => rfl
  | prologue text | epilogue text =>
    unfold apply
    dsimp only
    have he : d.unplaced.entered = d.entered := rfl
    rw [he]
    cases d.entered.isEmpty <;> rfl
  | step s change =>
    change some (push _ s).unplaced = some (push _ s)
    rw [← unplaced_push]
    rfl
  | retry count prompt => exact d.unplaced_retry line count prompt
  | human consult message =>
    change some _ = some _
    rw [← unplaced_human]
  | openBlock kind => exact d.unplaced_openBlock line kind
  | closeBlock => exact d.unplaced_closeBlock line
  | includeFile target => rfl

theorem unplaced_finish (d : Draft) (source : Option Path) :
    (d.unplaced.finish source).toOption = (d.finish source).toOption := by
  unfold finish
  have hb : d.unplaced.block = d.block.map fun b => { b with line := .nowhere } := rfl
  rw [hb]
  cases d.block <;> rfl

end Draft

/-! ## Documents without INCLUDE -/

theorem Directive.toOption_instruction (file : Option Path) (d : Directive) :
    (d.instruction file).toOption =
      (Directive.instruction none ⟨d.name, d.value, 0⟩).toOption := by
  unfold instruction
  dsimp only
  split
  · rfl
  · split <;> rfl

variable {src : Sources} {registry : Registry} {stack : List Location} {file : Option Path}

/-- A run over the directives of one file amounts to a run over their clauses. -/
theorem Draft.run_ofDirectives {ds : List Directive}
    (hi : ∀ d ∈ ds, d.name ≠ .builtin .includeFile) (d : Draft) :
    (d.run (Event.ofDirectives src registry stack file ds)).toOption.map unplaced =
      d.unplaced.carryAll (ds.map clause) := by
  induction ds generalizing d with
  | nil =>
    rw [Event.ofDirectives]
    rfl
  | cons e ds ih =>
    have hrest := ih fun d hd => hi d (List.mem_cons_of_mem e hd)
    have hone := e.toOption_instruction file
    rw [List.map_cons, carryAll_cons, carry, show clause e = (e.name, e.value) from rfl, ← hone]
    cases he : e.instruction file with
    | error err =>
      rw [Event.ofDirectives, he]
      rfl
    | ok i =>
      have hno := Directive.instruction_readsNoFile (hi e List.mem_cons_self) he
      rw [Event.ofDirectives_plain he hno, run, List.foldlM_cons]
      have ha := d.unplaced_apply ⟨file, e.line⟩ i
      simp only [feed]
      cases hd : d.apply ⟨file, e.line⟩ i with
      | error err =>
        rw [hd] at ha
        change none = _
        change _ = Option.bind ((d.unplaced.apply .nowhere i).toOption) _
        rw [← ha]
        rfl
      | ok next =>
        rw [hd] at ha
        change (Except.toOption (next.run _)).map unplaced = _
        change _ = Option.bind ((d.unplaced.apply .nowhere i).toOption) _
        rw [← ha, hrest next]
        rfl

/-- A text that lays out clauses without INCLUDE compiles to what its clauses compile to. -/
theorem Compiled.toOption_ofText {text : Text} {cs : List Clause}
    (h : Directive.Lays registry text cs) (hi : ∀ c ∈ cs, c.1 ≠ .builtin .includeFile) :
    (ofText src registry text).toOption =
      (Draft.carryAll {} cs).bind fun d => (d.finish none).toOption := by
  have hcs := Directive.ofDocument_of_lays h
  have hrun : (Draft.run {} (Event.ofDirectives src registry [] none
      (Directive.ofDocument registry text))).toOption.map Draft.unplaced =
        Draft.carryAll {} ((Directive.ofDocument registry text).map clause) :=
    Draft.run_ofDirectives
      (fun d hd => hi (clause d) (by rw [← hcs]; exact List.mem_map_of_mem hd)) {}
  rw [hcs] at hrun
  unfold ofText ofEvents
  rw [← hrun]
  cases Draft.run {} (Event.ofDirectives src registry [] none
      (Directive.ofDocument registry text)) with
  | error e => rfl
  | ok d =>
    change (d.finish none).toOption = (d.unplaced.finish none).toOption
    rw [Draft.unplaced_finish]

end ConversationFlow
