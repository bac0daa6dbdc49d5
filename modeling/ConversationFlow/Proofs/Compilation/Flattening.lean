import ConversationFlow.Proofs.Compilation.Contents
import ConversationFlow.Proofs.Compilation.Nesting

/-!
# INCLUDE as flattening

The flat directives of a file are its own, with those of the included files in the places of the
INCLUDEs, file inside file. A compilation that succeeds gives what the flat directives give as the
directives of one file, but for the prologues and the epilogues, where those of included files come
first. Nothing is said here of compilations that fail: the lines in their errors are lines of files.
-/

namespace ConversationFlow

open Directive (clause)

/-! ## Flat directives -/

/-- A directive, and whether an included file holds it. -/
structure FlatDirective where
  directive : Directive
  included : Bool

namespace FlatDirective

/-- The values of one keyword in order, those of included files or those of the file itself. -/
def values (k : Keyword) (included : Bool) (flat : List FlatDirective) : List Text :=
  (flat.filter fun x => x.directive.name = .builtin k ∧ x.included = included).map (·.directive.value)

variable {k : Keyword} {included : Bool}

theorem values_append (flat more : List FlatDirective) :
    values k included (flat ++ more) = values k included flat ++ values k included more := by
  unfold values
  rw [List.filter_append, List.map_append]

theorem values_singleton (x : FlatDirective) :
    values k included [x] =
      if x.directive.name = .builtin k ∧ x.included = included then [x.directive.value] else [] := by
  unfold values
  by_cases h : x.directive.name = .builtin k ∧ x.included = included
  · rw [if_pos h, List.filter_cons, if_pos (decide_eq_true h)]
    rfl
  · rw [if_neg h, List.filter_cons, if_neg (by simpa using h)]
    rfl

end FlatDirective

/-- The prologues or the epilogues as one list, in which those of included files come first, and the
number of these. -/
structure FramedTexts where
  texts : List Text
  included : Nat

namespace FramedTexts

/-- A text of an included file goes behind those of included files, any other one to the end. -/
def add (t : FramedTexts) (included : Bool) (text : Text) : FramedTexts :=
  if included then ⟨t.texts.insertIdx t.included text, t.included + 1⟩
  else { t with texts := t.texts ++ [text] }

theorem add_included (t : FramedTexts) (text : Text) :
    t.add true text = ⟨t.texts.insertIdx t.included text, t.included + 1⟩ := rfl

theorem add_own (t : FramedTexts) (text : Text) :
    t.add false text = { t with texts := t.texts ++ [text] } := rfl

/-- The values of one keyword, one after the other. -/
def addAll (t : FramedTexts) (k : Keyword) (flat : List FlatDirective) : FramedTexts :=
  flat.foldl (fun t x =>
    if x.directive.name = .builtin k then t.add x.included x.directive.value else t) t

end FramedTexts

/-- The directives of a file with each INCLUDE replaced by the directives of the file that it names,
which are flat themselves. -/
inductive Flattened (src : Sources) (registry : Registry) :
    Bool → Option Path → List Directive → List FlatDirective → Prop where
  | done {included : Bool} {file : Option Path} : Flattened src registry included file [] []
  | kept {included : Bool} {file : Option Path} {x : Directive} {ds : List Directive}
      {flat : List FlatDirective} : x.name ≠ .builtin .includeFile →
      Flattened src registry included file ds flat →
      Flattened src registry included file (x :: ds) (⟨x, included⟩ :: flat)
  | replaced {included : Bool} {file : Option Path} {x : Directive} {ds : List Directive}
      {text : Text} {inside rest : List FlatDirective} : x.name = .builtin .includeFile →
      src.readText (Event.includePath file x.value) = .ok text →
      Flattened src registry true (some (Event.includePath file x.value))
        (Directive.ofDocument registry text) inside →
      Flattened src registry included file ds rest →
      Flattened src registry included file (x :: ds) (inside ++ rest)

namespace Flattened

variable {src : Sources} {registry : Registry} {included : Bool} {file : Option Path}
  {ds : List Directive} {flat other : List FlatDirective}

theorem unique (h : Flattened src registry included file ds flat)
    (ho : Flattened src registry included file ds other) : other = flat := by
  induction h generalizing other with
  | done =>
    cases ho
    rfl
  | kept hx _ ih =>
    cases ho with
    | kept _ hrest => rw [ih hrest]
    | replaced hx' => exact absurd hx' hx
  | replaced hx hread _ _ inFile inRest =>
    cases ho with
    | kept hx' => exact absurd hx hx'
    | replaced _ hread' hinside hrest =>
      obtain rfl := Except.ok.inj (hread.symm.trans hread')
      rw [inFile hinside, inRest hrest]

theorem no_include (h : Flattened src registry included file ds flat) :
    ∀ x ∈ flat, x.directive.name ≠ .builtin .includeFile := by
  induction h with
  | done => exact fun x hx => by cases hx
  | kept hx _ ih =>
    intro y hy
    rcases List.mem_cons.mp hy with rfl | hy
    · exact hx
    · exact ih y hy
  | replaced _ _ _ _ inFile inRest =>
    exact fun y hy => (List.mem_append.mp hy).elim (inFile y) (inRest y)

end Flattened

/-! ## Prologues and epilogues -/

/-- The settings with these prologues and epilogues. -/
def Settings.around (s : Settings) (prologues epilogues : List Text) : Settings :=
  { s with prologues, epilogues }

/-- The three directives whose meaning depends on the file that holds them. -/
def DirectiveName.IsPlain (n : DirectiveName) : Prop :=
  n ≠ .builtin .prologue ∧ n ≠ .builtin .epilogue ∧ n ≠ .builtin .includeFile

/-- What a directive of this name and value says of prologues, epilogues and files. -/
def Instruction.Frames (n : DirectiveName) (value : Text) : Instruction → Prop
  | .prologue text => n = .builtin .prologue ∧ text = value
  | .epilogue text => n = .builtin .epilogue ∧ text = value
  | .includeFile target => n = .builtin .includeFile ∧ target = value
  | .configure change | .step _ change => n.IsPlain ∧
      ∀ s prologues epilogues, change (s.around prologues epilogues) =
        (change s).around prologues epilogues
  | _ => n.IsPlain

namespace Instruction

theorem reads_frames_ofKeyword (k : Keyword) (value : Text) :
    Reads (Frames (.builtin k) value) (ofKeyword k value) := by
  have plain {k : Keyword} (h : k ≠ .prologue ∧ k ≠ .epilogue ∧ k ≠ .includeFile) :
      DirectiveName.IsPlain (.builtin k) :=
    ⟨fun he => h.1 (DirectiveName.builtin.inj he), fun he => h.2.1 (DirectiveName.builtin.inj he),
      fun he => h.2.2 (DirectiveName.builtin.inj he)⟩
  cases k with
  | runRetry =>
    refine reads_bind fun ws _ => ?_
    cases ws with
    | nil => intro i hi; cases hi
    | cons count rest => exact reads_bind fun n _ => reads_ok (plain (by decide))
  | checkpoint | compact | newConversation | elide | compactPreserve =>
    exact reads_ok ⟨plain (by decide), fun _ _ _ => rfl⟩
  | pause | consult | onFailure | onSuccess | endBlock => exact reads_ok (plain (by decide))
  | prologue | epilogue | includeFile =>
    exact reads_bind fun _ hv => reads_ok ⟨rfl, (required_ok hv).1⟩
  | _ => exact reads_bind fun _ _ => reads_ok ⟨plain (by decide), fun _ _ _ => rfl⟩

end Instruction

theorem Instruction.Frames.no_include {n : DirectiveName} {value : Text} {i : Instruction}
    (h : i.Frames n value) (hno : i.ReadsNoFile) : n ≠ .builtin .includeFile := by
  cases i with
  | configure change | step s change => exact h.1.2.2
  | prologue text | epilogue text =>
    rw [h.1]
    decide
  | includeFile target => exact absurd rfl (hno target)
  | _ => exact h.2.2

theorem Directive.instruction_frames {x : Directive} {file : Option Path} {i : Instruction}
    (h : x.instruction file = .ok i) : i.Frames x.name x.value := by
  refine x.instruction_reads (fun name hn => ?_) (fun k hk => ?_) h
  · rw [hn]
    exact ⟨⟨DirectiveName.noConfusion, DirectiveName.noConfusion, DirectiveName.noConfusion⟩,
      fun _ _ _ => rfl⟩
  · rw [hk]
    exact Instruction.reads_frames_ofKeyword k x.value

namespace Draft

variable {d d' : Draft} {line : SourceLine} {prologues epilogues : List Text}

/-! ## Drafts without files -/

/-- The draft as one file gives it, with these prologues and epilogues. -/
def alone (d : Draft) (prologues epilogues : List Text) : Draft :=
  { settings := d.settings.around prologues epilogues, steps := d.steps, block := d.block }

theorem target_alone (d : Draft) : (d.alone prologues epilogues).target = d.target := rfl

theorem withTarget_alone (d : Draft) (steps : List Step) :
    (d.alone prologues epilogues).withTarget steps =
      (d.withTarget steps).alone prologues epilogues := by
  unfold withTarget alone
  cases d.block <;> rfl

theorem push_alone (d : Draft) (s : Step) :
    (d.alone prologues epilogues).push s = (d.push s).alone prologues epilogues := by
  rw [push, target_alone, withTarget_alone, push]

theorem human_alone (d : Draft) (consult : Bool) (message : Text) :
    (d.alone prologues epilogues).human consult message =
      (d.human consult message).alone prologues epilogues := by
  unfold human
  rw [target_alone, push_alone]
  split
  · rfl
  · cases consult <;> rfl

theorem retry_alone (d : Draft) (line : SourceLine) (count : Nat) (prompt : Option Text) :
    (d.alone prologues epilogues).retry line count prompt =
      (d.retry line count prompt).map (·.alone prologues epilogues) := by
  unfold retry
  rw [target_alone]
  split
  · dsimp only
    rw [withTarget_alone]
    rfl
  · rfl

theorem openBlock_alone (d : Draft) (line : SourceLine) (kind : BlockKind) :
    (d.alone prologues epilogues).openBlock line kind =
      (d.openBlock line kind).map (·.alone prologues epilogues) := by
  have hb : (d.alone prologues epilogues).block = d.block := rfl
  have hs : (d.alone prologues epilogues).steps = d.steps := rfl
  unfold openBlock
  rw [hb, hs]
  split
  · rfl
  · split
    · split
      · rfl
      · split <;> rfl
    · rfl

theorem closeBlock_alone (d : Draft) (line : SourceLine) :
    (d.alone prologues epilogues).closeBlock line =
      (d.closeBlock line).map (·.alone prologues epilogues) := by
  have hb : (d.alone prologues epilogues).block = d.block := rfl
  have hs : (d.alone prologues epilogues).steps = d.steps := rfl
  unfold closeBlock
  rw [hb, hs]
  cases d.block with
  | none => rfl
  | some b =>
    dsimp only
    split <;> rfl

/-- Outside files an instruction does the same, and prologues and epilogues go to one list each. -/
theorem apply_alone {n : DirectiveName} {value : Text} {i : Instruction} (hi : i.Frames n value)
    (h : d.apply line i = .ok d') (prologues epilogues : List Text) :
    ∃ prologues' epilogues', (d.alone prologues epilogues).apply line i =
      .ok (d'.alone prologues' epilogues') := by
  cases i with
  | configure change =>
    cases h
    have hc := hi.2 d.settings prologues epilogues
    exact ⟨prologues, epilogues, congrArg (fun settings : Settings =>
      Except.ok ({ settings, steps := d.steps, block := d.block } : Draft)) hc⟩
  | prologue text =>
    refine ⟨prologues ++ [text], epilogues, ?_⟩
    simp only [apply] at h
    split at h <;> cases h <;> rfl
  | epilogue text =>
    refine ⟨prologues, epilogues ++ [text], ?_⟩
    simp only [apply] at h
    split at h <;> cases h <;> rfl
  | step s change =>
    cases h
    have hc := hi.2 d.settings prologues epilogues
    refine ⟨prologues, epilogues, ?_⟩
    rw [← push_alone]
    exact congrArg (fun settings : Settings =>
      Except.ok (push { settings, steps := d.steps, block := d.block } s)) hc
  | retry count prompt =>
    refine ⟨prologues, epilogues, (d.retry_alone line count prompt).trans ?_⟩
    change d.retry line count prompt = .ok d' at h
    rw [h]
    rfl
  | human consult message =>
    cases h
    exact ⟨prologues, epilogues, congrArg Except.ok (d.human_alone consult message)⟩
  | openBlock kind =>
    refine ⟨prologues, epilogues, (d.openBlock_alone line kind).trans ?_⟩
    change d.openBlock line kind = .ok d' at h
    rw [h]
    rfl
  | closeBlock =>
    refine ⟨prologues, epilogues, (d.closeBlock_alone line).trans ?_⟩
    change d.closeBlock line = .ok d' at h
    rw [h]
    rfl
  | includeFile target =>
    cases h
    exact ⟨prologues, epilogues, rfl⟩

theorem finish_alone (hb : d.block = none) (source : Option Path) :
    (d.alone prologues epilogues).finish source =
      .ok ⟨d.settings.around prologues epilogues, d.steps, source⟩ := by
  have hb' : (d.alone prologues epilogues).block = none := hb
  unfold finish
  rw [hb']
  rfl

theorem carry_of_apply {x : Directive} {file : Option Path} {i : Instruction}
    (hx : x.instruction file = .ok i) (h : d.apply line i = .ok d') :
    d.unplaced.carry (clause x) = some d'.unplaced := by
  have hone := x.toOption_instruction file
  have ha := d.unplaced_apply line i
  rw [hx] at hone
  rw [h] at ha
  unfold carry
  rw [show clause x = (x.name, x.value) from rfl, ← hone]
  exact ha.symm

/-! ## The lists that files divide -/

theorem insertIdx_length_append {α : Type} (before after : List α) (a : α) :
    (before ++ after).insertIdx before.length a = before ++ a :: after := by
  induction before with
  | nil => rfl
  | cons b before ih => simp [ih]

/-- The prologues or the epilogues, those of included files or those of the file itself. -/
def texts (d : Draft) : Keyword → Bool → List Text
  | .prologue, false => d.settings.prologues
  | .prologue, true => d.includedPrologues
  | .epilogue, false => d.settings.epilogues
  | .epilogue, true => d.includedEpilogues
  | _, _ => []

/-- Nothing is changed of what files divide. -/
def SparesTexts (d d' : Draft) : Prop := ∀ k included, d'.texts k included = d.texts k included

theorem sparesTexts_withTarget (d : Draft) (steps : List Step) :
    d.SparesTexts (d.withTarget steps) := by
  unfold withTarget
  cases d.block <;> exact fun _ _ => rfl

theorem sparesTexts_human (d : Draft) (consult : Bool) (message : Text) :
    d.SparesTexts (d.human consult message) := by
  unfold human
  split
  · exact d.sparesTexts_withTarget _
  · cases consult <;> exact fun _ _ => rfl

theorem sparesTexts_change {change : Settings → Settings}
    (h : ∀ s prologues epilogues, change (s.around prologues epilogues) =
      (change s).around prologues epilogues) (d : Draft) :
    d.SparesTexts { d with settings := change d.settings } := by
  have hself : change d.settings =
      (change d.settings).around d.settings.prologues d.settings.epilogues :=
    h d.settings d.settings.prologues d.settings.epilogues
  intro k included
  unfold texts
  dsimp only
  rw [hself]
  rfl

theorem apply_sparesTexts {n : DirectiveName} {value : Text} {i : Instruction}
    (hi : i.Frames n value) (hn : n.IsPlain) (h : d.apply line i = .ok d') : d.SparesTexts d' := by
  cases i with
  | configure change =>
    cases h
    exact sparesTexts_change hi.2 d
  | prologue text => exact absurd hi.1 hn.1
  | epilogue text => exact absurd hi.1 hn.2.1
  | step s change =>
    cases h
    intro k included
    rw [← sparesTexts_change hi.2 d k included]
    exact sparesTexts_withTarget _ _ k included
  | retry count prompt =>
    obtain ⟨before, c, f, s, -, rfl⟩ := retry_ok h
    exact d.sparesTexts_withTarget _
  | human consult message =>
    cases h
    exact d.sparesTexts_human consult message
  | openBlock kind =>
    obtain ⟨-, rfl, -⟩ := openBlock_ok h
    exact fun _ _ => rfl
  | closeBlock =>
    obtain ⟨b, -, ⟨before, owner, -, rfl⟩ | ⟨-, rfl⟩⟩ := closeBlock_ok h <;> exact fun _ _ => rfl
  | includeFile target => exact absurd hi.1 hn.2.2

/-- A prologue goes to one of the two lists of prologues. -/
theorem apply_prologue {text : Text} (h : d.apply line (.prologue text) = .ok d') (included : Bool) :
    d'.texts .prologue included = (d.texts .prologue included ++
        if (!d.entered.isEmpty) = included then [text] else []) ∧
      d'.texts .epilogue included = d.texts .epilogue included := by
  simp only [apply] at h
  split at h <;> rename_i he <;> cases h <;> cases included <;> simp [texts, he]

theorem apply_epilogue {text : Text} (h : d.apply line (.epilogue text) = .ok d') (included : Bool) :
    d'.texts .epilogue included = (d.texts .epilogue included ++
        if (!d.entered.isEmpty) = included then [text] else []) ∧
      d'.texts .prologue included = d.texts .prologue included := by
  simp only [apply] at h
  split at h <;> rename_i he <;> cases h <;> cases included <;> simp [texts, he]

/-- A value goes to the list of its keyword, where an included file is told from the first one by
the files that are entered; no other directive changes these lists. -/
theorem apply_texts {n : DirectiveName} {value : Text} {i : Instruction} (hi : i.Frames n value)
    (hno : i.ReadsNoFile) (h : d.apply line i = .ok d') {k : Keyword}
    (hk : k ∈ [Keyword.prologue, .epilogue]) (included : Bool) :
    d'.texts k included = d.texts k included ++
      if n = .builtin k ∧ (!d.entered.isEmpty) = included then [value] else [] := by
  have hkind : k = .prologue ∨ k = .epilogue := by simpa using hk
  by_cases hn : n.IsPlain
  · rw [apply_sparesTexts hi hn h, if_neg, List.append_nil]
    rintro ⟨rfl, -⟩
    rcases hkind with rfl | rfl
    · exact hn.1 rfl
    · exact hn.2.1 rfl
  · cases i with
    | prologue text =>
      obtain ⟨rfl, rfl⟩ := hi
      rcases hkind with rfl | rfl
      · simpa using (apply_prologue h included).1
      · simpa using (apply_prologue h included).2
    | epilogue text =>
      obtain ⟨rfl, rfl⟩ := hi
      rcases hkind with rfl | rfl
      · simpa using (apply_epilogue h included).2
      · simpa using (apply_epilogue h included).1
    | includeFile target => exact absurd rfl (hno target)
    | configure change | step s change => exact absurd hi.1 hn
    | _ => exact absurd hi hn

/-- Both lists as one. -/
def framedTexts (d : Draft) (k : Keyword) : FramedTexts :=
  ⟨d.texts k true ++ d.texts k false, (d.texts k true).length⟩

/-- With both lists written as one, a text of an included file is inserted at the number of those
that were included before it. -/
theorem apply_inserts {n : DirectiveName} {k : Keyword} {value : Text} {i : Instruction}
    (hi : i.Frames n value) (hno : i.ReadsNoFile) (h : d.apply line i = .ok d')
    (hk : k ∈ [Keyword.prologue, .epilogue]) : d'.framedTexts k =
      if n = .builtin k then (d.framedTexts k).add (!d.entered.isEmpty) value
      else d.framedTexts k := by
  have htexts := apply_texts hi hno h hk
  unfold framedTexts
  rw [htexts, htexts]
  by_cases hn : n = .builtin k
  · cases hentered : !d.entered.isEmpty with
    | true =>
      rw [if_pos hn, FramedTexts.add_included, insertIdx_length_append, if_pos ⟨hn, rfl⟩,
        if_neg (by simp), List.append_nil, List.append_assoc, List.length_append]
      rfl
    | false =>
      rw [if_pos hn, FramedTexts.add_own, if_neg (by simp), if_pos ⟨hn, rfl⟩, List.append_nil,
        List.append_assoc]
  · rw [if_neg hn, if_neg fun h => hn h.1, if_neg fun h => hn h.1, List.append_nil, List.append_nil]

/-! ## Reading a file is reading its flat directives -/

/-- One draft comes of the other by flat directives: as the directives of one file they do the same,
and the prologues and epilogues go to their lists, or are inserted into one. -/
structure ReadsFlat (d d' : Draft) (flat : List FlatDirective) : Prop where
  alone : ∀ prologues epilogues, ∃ prologues' epilogues',
    (d.alone prologues epilogues).unplaced.carryAll (flat.map fun x => clause x.directive) =
      some (d'.alone prologues' epilogues').unplaced
  texts : ∀ k ∈ [Keyword.prologue, .epilogue], ∀ included,
    d'.texts k included = d.texts k included ++ FlatDirective.values k included flat
  inserts : ∀ k ∈ [Keyword.prologue, .epilogue],
    d'.framedTexts k = (d.framedTexts k).addAll k flat
  entered : d'.entered = d.entered

namespace ReadsFlat

variable {next : Draft} {flat more : List FlatDirective}

theorem refl (d : Draft) : d.ReadsFlat d [] where
  alone prologues epilogues := ⟨prologues, epilogues, rfl⟩
  texts _ _ _ := (List.append_nil _).symm
  inserts _ _ := rfl
  entered := rfl

theorem trans (h : d.ReadsFlat next flat) (hn : next.ReadsFlat d' more) :
    d.ReadsFlat d' (flat ++ more) where
  alone prologues epilogues := by
    obtain ⟨prologues, epilogues, h⟩ := h.alone prologues epilogues
    obtain ⟨prologues, epilogues, hn⟩ := hn.alone prologues epilogues
    refine ⟨prologues, epilogues, ?_⟩
    rw [List.map_append, carryAll_append, h]
    exact hn
  texts k hk included := by
    rw [hn.texts k hk, h.texts k hk, FlatDirective.values_append, List.append_assoc]
  inserts k hk := by
    rw [hn.inserts k hk, h.inserts k hk]
    exact List.foldl_append.symm
  entered := hn.entered.trans h.entered

/-- One directive that reads no file. -/
theorem plain {x : Directive} {file : Option Path} {i : Instruction}
    (hx : x.instruction file = .ok i) (hno : i.ReadsNoFile) (h : d.apply line i = .ok d') :
    d.ReadsFlat d' [⟨x, !d.entered.isEmpty⟩] where
  alone prologues epilogues := by
    obtain ⟨prologues', epilogues', ha⟩ :=
      apply_alone (Directive.instruction_frames hx) h prologues epilogues
    refine ⟨prologues', epilogues', ?_⟩
    rw [List.map_singleton, carryAll_singleton]
    exact carry_of_apply hx ha
  texts k hk included := by
    rw [apply_texts (Directive.instruction_frames hx) hno h hk, FlatDirective.values_singleton]
  inserts _ hk := apply_inserts (Directive.instruction_frames hx) hno h hk
  entered := apply_entered h

/-- The marks of a file give nothing. -/
theorem inside {start inner : Draft} (hs : d.feed .enter = .ok start)
    (h : start.ReadsFlat inner flat) (hl : inner.feed .leave = .ok d') : d.ReadsFlat d' flat := by
  cases hs
  obtain ⟨rfl, -⟩ := feed_leave_ok hl
  refine ⟨h.alone, h.texts, h.inserts, ?_⟩
  change inner.entered.tail = d.entered
  rw [h.entered]
  rfl

end ReadsFlat

variable {src : Sources} {registry : Registry} {stack : List Location} {file : Option Path}
  {ds : List Directive}

theorem Reads.flat (h : Reads src registry stack file ds d d') :
    ∃ flat, Flattened src registry (!d.entered.isEmpty) file ds flat ∧ d.ReadsFlat d' flat := by
  induction h with
  | @done _ _ d => exact ⟨[], .done, .refl d⟩
  | @plain stack file x ds i d next d' hx hno ha _ ih =>
    obtain ⟨flat, hflat, hreads⟩ := ih
    have hone := ReadsFlat.plain hx hno ha
    rw [hone.entered] at hflat
    exact ⟨_, .kept ((Directive.instruction_frames hx).no_include hno) hflat, hone.trans hreads⟩
  | @included stack file x ds d start inside left d' i hs _ hl _ inFile inRest =>
    obtain ⟨flat, hflat, hreads⟩ := inFile
    obtain ⟨rest, hrest, hreadsRest⟩ := inRest
    have hfile := ReadsFlat.inside hs hreads hl
    rw [hfile.entered] at hrest
    obtain ⟨hname, htarget⟩ := Directive.instruction_frames i.named
    have hread := i.readText
    cases hs
    unfold Inclusion.path at hflat hread
    rw [htarget] at hflat hread
    exact ⟨flat ++ rest, .replaced hname hread hflat hrest, hfile.trans hreadsRest⟩

end Draft

/-! ## Compiled conversations -/

namespace Compiled

variable {src : Sources} {registry : Registry} {stack : List Location} {file : Option Path}
  {c : Compiled}

/-- The result of compiling a text, or that of a file with this text. -/
inductive IsResultOf (src : Sources) (registry : Registry) :
    List Location → Option Path → Text → Except CompileError Compiled → Prop where
  | text {text : Text} : IsResultOf src registry [] none text (ofText src registry text)
  | file {path : Path} {l : Location} {text : Text} : src.locate path = .ok l →
      src.textAt l = .ok text →
      IsResultOf src registry [l] (some path) text (ofFile src registry path)

theorem IsResultOf.eq_ofEvents {text : Text} {r : Except CompileError Compiled}
    (h : IsResultOf src registry stack file text r) :
    r = ofEvents file
      (Event.ofDirectives src registry stack file (Directive.ofDocument registry text)) := by
  cases h with
  | text => rfl
  | file hl ht => exact ofFile_eq hl ht

/-- A compilation that succeeds gives the settings and steps of its flat directives, which the
compiler takes as the directives of one file, but for the prologues and the epilogues: those of
included files come first and those of the file itself last, both in the order of the flat
directives. -/
theorem include_flattens {text : Text} (h : IsResultOf src registry stack file text (.ok c)) :
    ∃ flat, (Flattened src registry false file (Directive.ofDocument registry text) flat ∧
        ∀ other, Flattened src registry false file (Directive.ofDocument registry text) other →
          other = flat) ∧
      ∃ plain, ofEvents file
          (Event.ofDirectives src registry [] file (flat.map (·.directive))) = .ok plain ∧
        c = { plain with
          settings := plain.settings.around
            (FlatDirective.values .prologue true flat ++ FlatDirective.values .prologue false flat)
            (FlatDirective.values .epilogue true flat ++
              FlatDirective.values .epilogue false flat) } := by
  obtain ⟨d, hrun, hfinish⟩ := ofEvents_ok h.eq_ofEvents.symm
  obtain ⟨flat, hflat, hreads⟩ := (Draft.reads_of_run hrun).flat
  refine ⟨flat, ⟨hflat, fun other => hflat.unique⟩, ?_⟩
  have hno : ∀ x ∈ flat.map (·.directive), x.name ≠ .builtin .includeFile := by
    intro x hx
    obtain ⟨y, hy, rfl⟩ := List.mem_map.mp hx
    exact hflat.no_include y hy
  obtain ⟨prologues, epilogues, halone⟩ := hreads.alone [] []
  -- As the directives of one file they make the draft without files, up to the lines.
  have hflatRun : (Draft.run {} (Event.ofDirectives src registry [] file
      (flat.map (·.directive)))).toOption.map Draft.unplaced = _ := Draft.run_ofDirectives hno {}
  rw [List.map_map] at hflatRun
  have hsame := hflatRun.trans halone
  obtain ⟨e, he, hsame⟩ := Option.map_eq_some_iff.mp hsame
  obtain ⟨hb, rfl⟩ := Draft.finish_ok hfinish
  have hplain := (e.unplaced_finish file).symm
  rw [hsame, Draft.unplaced_finish, Draft.finish_alone hb] at hplain
  refine ⟨⟨d.settings.around prologues epilogues, d.steps, file⟩, ?_, ?_⟩
  · unfold ofEvents
    rw [ok_of_toOption he]
    exact ok_of_toOption hplain
  · have hpOwn : d.settings.prologues = FlatDirective.values .prologue false flat :=
      hreads.texts .prologue (by decide) false
    have hpIn : d.includedPrologues = FlatDirective.values .prologue true flat :=
      hreads.texts .prologue (by decide) true
    have heOwn : d.settings.epilogues = FlatDirective.values .epilogue false flat :=
      hreads.texts .epilogue (by decide) false
    have heIn : d.includedEpilogues = FlatDirective.values .epilogue true flat :=
      hreads.texts .epilogue (by decide) true
    rw [hpOwn, hpIn, heOwn, heIn]
    rfl

/-- The prologues and epilogues of a compiled conversation are also those of one list, into which
the texts of included files are inserted. -/
theorem include_inserts {text : Text} (h : IsResultOf src registry stack file text (.ok c)) :
    ∃ flat, Flattened src registry false file (Directive.ofDocument registry text) flat ∧
      c.settings.prologues = (FramedTexts.addAll ⟨[], 0⟩ .prologue flat).texts ∧
      c.settings.epilogues = (FramedTexts.addAll ⟨[], 0⟩ .epilogue flat).texts := by
  obtain ⟨d, hrun, hfinish⟩ := ofEvents_ok h.eq_ofEvents.symm
  obtain ⟨flat, hflat, hreads⟩ := (Draft.reads_of_run hrun).flat
  obtain ⟨-, rfl⟩ := Draft.finish_ok hfinish
  exact ⟨flat, hflat, congrArg FramedTexts.texts (hreads.inserts .prologue (by decide)),
    congrArg FramedTexts.texts (hreads.inserts .epilogue (by decide))⟩

/-- A prologue and a step, with a file included behind them. -/
def framed : Text := "PROLOGUE own\nPROMPT a\nINCLUDE b\nPROMPT c".toList

def framing : FileSystem :=
  ⟨[], [(["b".toList], .file (Text.toBytes "PROLOGUE shared\nPROMPT fix".toList))], [], []⟩

def framedFlat : List FlatDirective :=
  [⟨⟨.builtin .prologue, "own".toList, 1⟩, false⟩, ⟨⟨.builtin .prompt, "a".toList, 2⟩, false⟩,
    ⟨⟨.builtin .prologue, "shared".toList, 1⟩, true⟩, ⟨⟨.builtin .prompt, "fix".toList, 2⟩, true⟩,
    ⟨⟨.builtin .prompt, "c".toList, 4⟩, false⟩]

/-- The prologue of the included file comes first, and its step in the place of the INCLUDE. -/
theorem included_prologue_comes_first :
    IsResultOf framing .empty [] none framed
      (.ok ⟨{ prologues := ["shared".toList, "own".toList] },
        [.prompt "a".toList, .prompt "fix".toList, .prompt "c".toList], none⟩) ∧
    ∃ plain, ofEvents none
        (Event.ofDirectives framing .empty [] none (framedFlat.map (·.directive))) = .ok plain ∧
      plain.steps = [.prompt "a".toList, .prompt "fix".toList, .prompt "c".toList] := by
  have hdoc : Directive.ofDocument .empty framed =
      [⟨.builtin .prologue, "own".toList, 1⟩, ⟨.builtin .prompt, "a".toList, 2⟩,
        ⟨.builtin .includeFile, "b".toList, 3⟩, ⟨.builtin .prompt, "c".toList, 4⟩] := rfl
  have hincluded : Directive.ofDocument .empty "PROLOGUE shared\nPROMPT fix".toList =
      [⟨.builtin .prologue, "shared".toList, 1⟩, ⟨.builtin .prompt, "fix".toList, 2⟩] := rfl
  have htext : framing.textAt ["b".toList] = .ok "PROLOGUE shared\nPROMPT fix".toList := rfl
  have hc : ofText framing .empty framed =
      .ok ⟨{ prologues := ["shared".toList, "own".toList] },
        [.prompt "a".toList, .prompt "fix".toList, .prompt "c".toList], none⟩ := by
    unfold ofText
    rw [hdoc]
    iterate 2 rw [Event.ofDirectives_plain rfl fun _ => Instruction.noConfusion]
    rw [Event.ofDirectives_include rfl rfl rfl htext, hincluded]
    iterate 3 rw [Event.ofDirectives_plain rfl fun _ => Instruction.noConfusion]
    rw [Event.ofDirectives, Event.ofDirectives]
    rfl
  have hresult : IsResultOf framing .empty [] none framed (ofText framing .empty framed) := .text
  rw [hc] at hresult
  have hflat : Flattened framing .empty false none (Directive.ofDocument .empty framed)
      framedFlat := by
    have hinside : Flattened framing .empty true (some (Event.includePath none "b".toList))
        (Directive.ofDocument .empty "PROLOGUE shared\nPROMPT fix".toList)
        ((framedFlat.drop 2).take 2) := by
      rw [hincluded]
      exact .kept (by decide) (.kept (by decide) .done)
    have hbehind : Flattened framing .empty false none
        [⟨.builtin .includeFile, "b".toList, 3⟩, ⟨.builtin .prompt, "c".toList, 4⟩]
        ((framedFlat.drop 2).take 2 ++ framedFlat.drop 4) :=
      .replaced rfl rfl hinside (.kept (by decide) .done)
    rw [hdoc]
    exact .kept (by decide) (.kept (by decide) hbehind)
  obtain ⟨flat, ⟨-, hunique⟩, plain, hplain, heq⟩ := include_flattens hresult
  obtain rfl := hunique framedFlat hflat
  exact ⟨hresult, plain, hplain, (congrArg steps heq).symm⟩

end Compiled

end ConversationFlow
