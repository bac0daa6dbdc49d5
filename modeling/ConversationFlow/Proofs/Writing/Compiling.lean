import ConversationFlow.Compile.Written
import ConversationFlow.Proofs.Compilation.Clauses
import ConversationFlow.Proofs.Compilation.Drafts

/-!
# What written texts compile to

`Compiles` says what a piece of a written text does to a draft, without naming the directives that it
is made of; pieces that stand behind each other do one after the other. The pieces that write
single settings follow, one statement for each way in which a setting is written.
-/

namespace ConversationFlow

open Directive (Clause Lays)

variable {registry : Registry}

/-- The text lays out directives without INCLUDE, which take a draft in a state `P` to what `f`
says. -/
def Compiles (registry : Registry) (P : Draft → Prop) (text : Text) (f : Draft → Option Draft) :
    Prop :=
  ∃ cs, Lays registry text cs ∧ (∀ c ∈ cs, c.1 ≠ .builtin .includeFile) ∧
    ∀ d, P d → d.carryAll cs = f d

namespace Compiles

variable {P Q : Draft → Prop} {t u : Text} {f g : Draft → Option Draft}

theorem nil : Compiles registry P [] some :=
  ⟨[], .nil, (fun _ h => by cases h), fun d _ => d.carryAll_nil⟩

theorem append (ht : Compiles registry P t f) (hu : Compiles registry Q u g)
    (hq : ∀ d, P d → ∀ d', f d = some d' → Q d') :
    Compiles registry P (t ++ u) fun d => (f d).bind g := by
  obtain ⟨cs, hl, hi, hf⟩ := ht
  obtain ⟨ds, hl', hi', hg⟩ := hu
  refine ⟨cs ++ ds, hl.append hl', List.forall_mem_append.mpr ⟨hi, hi'⟩, fun d hd => ?_⟩
  rw [Draft.carryAll_append, hf d hd]
  dsimp only
  cases hr : f d with
  | none => rfl
  | some d' => exact hg d' (hq d hd d' hr)

theorem congr (h : Compiles registry P t f) (hfg : ∀ d, P d → f d = g d) :
    Compiles registry P t g := by
  obtain ⟨cs, hl, hi, hf⟩ := h
  exact ⟨cs, hl, hi, fun d hd => (hf d hd).trans (hfg d hd)⟩

theorem weaken (h : Compiles registry P t f) (hq : ∀ d, Q d → P d) : Compiles registry Q t f := by
  obtain ⟨cs, hl, hi, hf⟩ := h
  exact ⟨cs, hl, hi, fun d hd => hf d (hq d hd)⟩

/-- One directive that is not INCLUDE. -/
theorem single {n : DirectiveName} {v : Text} (hl : Lays registry t [(n, v)])
    (hn : n ≠ .builtin .includeFile) (hf : ∀ d, P d → d.carry (n, v) = f d) :
    Compiles registry P t f := by
  refine ⟨[(n, v)], hl, List.forall_mem_singleton.mpr hn, fun d hd => ?_⟩
  rw [Draft.carryAll_singleton]
  exact hf d hd

/-- A blank line behind a text that is not empty changes nothing. -/
theorem blank (h : Compiles registry P t f) :
    Compiles registry P (if t.isEmpty then t else t ++ ['\n']) f := by
  obtain ⟨cs, hl, hi, hf⟩ := h
  refine ⟨cs, ?_, hi, hf⟩
  split
  · exact hl
  · next hne =>
    refine hl.blank ?_
    rintro rfl
    cases hl
    exact hne rfl

end Compiles

/-! ## Single clauses -/

namespace Draft

theorem carry_builtin (d : Draft) (k : Keyword) (v : Text) :
    d.carry (.builtin k, v) =
      (Instruction.ofKeyword k v).toOption.bind fun i => (d.apply .nowhere i).toOption := by
  unfold carry Directive.instruction
  dsimp only
  cases Instruction.ofKeyword k v <;> rfl

theorem carry_custom (d : Draft) (name v : Text) :
    d.carry (.custom name, v) = some (d.push (.custom name v)) := rfl

theorem toOption_bind {ε α β : Type} (x : Except ε α) (f : α → Except ε β) :
    (x >>= f).toOption = x.toOption.bind fun a => (f a).toOption := by
  cases x <;> rfl

end Draft

theorem Instruction.required_of_isValue {v : Text} (hv : Text.IsValue v) :
    required v = .ok v := by
  have hb : Text.allBlank v ≠ true := fun hb => hv.nonempty (hv.toIsLine.eq_nil_iff.mpr hb)
  rw [required, if_neg hb]

theorem Instruction.required_reread {v : Text} (hv : Directive.IsPassage v) :
    required (Directive.reread v) = .ok (Directive.reread v) := by
  rw [required, if_neg (by rw [Directive.allBlank_reread hv.toIsBlock hv.written]; exact nofun)]

/-! ## Pieces that write settings -/

/-- The text lays out directives that take settings to what `f` says and leave the rest of a draft
alone. -/
def Settings.Compiles (registry : Registry) (text : Text) (f : Settings → Option Settings) : Prop :=
  ConversationFlow.Compiles registry (fun d => d.entered = []) text fun d =>
    (f d.settings).map fun s => { d with settings := s }

namespace Settings

variable {t u : Text} {f g : Settings → Option Settings}

theorem Compiles.append (ht : Compiles registry t f) (hu : Compiles registry u g) :
    Compiles registry (t ++ u) fun s => (f s).bind g := by
  refine (ConversationFlow.Compiles.append ht hu fun d hd d' hr => ?_).congr fun d _ => ?_
  · obtain ⟨s, -, rfl⟩ := Option.map_eq_some_iff.mp hr
    exact hd
  · dsimp only
    cases f d.settings <;> rfl

theorem Compiles.congr (ht : Compiles registry t f) (hfg : ∀ s, f s = g s) :
    Compiles registry t g :=
  ConversationFlow.Compiles.congr ht fun d _ => by rw [hfg]

theorem compiles_nil : Compiles registry [] some := ConversationFlow.Compiles.nil

variable {α : Type} {k : Keyword}

/-- One directive whose value changes the settings. -/
theorem compiles_entry {v : Text} {x : Except Refusal α} {set : α → Settings → Settings}
    (hl : Lays registry t [(.builtin k, v)]) (hk : k ≠ .includeFile)
    (hx : Instruction.ofKeyword k v = x >>= fun a => .ok (.configure (set a))) :
    Compiles registry t fun s => x.toOption.map (set · s) := by
  refine ConversationFlow.Compiles.single hl (fun h => hk (DirectiveName.builtin.inj h))
    fun d _ => ?_
  rw [Draft.carry_builtin, hx, Draft.toOption_bind]
  cases x <;> rfl

/-- How a keyword reads its value. -/
def ReadBy (k : Keyword) (read : Text → Except Refusal α) (set : α → Settings → Settings) : Prop :=
  k ≠ .includeFile ∧
    ∀ v, Instruction.ofKeyword k v = read v >>= fun a => .ok (.configure (set a))

variable {read : Text → Except Refusal α} {set : α → Settings → Settings}

/-- A line for a value, if there is one. -/
theorem compiles_optional {write : α → Text} (reread : α → Option α) {value : Option α}
    (hk : ReadBy k read set) (ht : k.takesText = false) (hw : ∀ a ∈ value, Text.IsLine (write a))
    (hr : ∀ a ∈ value, (read (write a)).toOption = reread a) :
    Compiles registry (optional k.spelling (value.map write)) fun s =>
      (value.mapM reread).map fun o => o.elim s (set · s) := by
  cases value with
  | none => exact compiles_nil
  | some a =>
    have hl : Lays registry (entry k.spelling (write a)) [(.builtin k, write a)] :=
      Directive.Lays.written_line (Directive.isName_builtin k) ht (hw a rfl)
    refine (compiles_entry hl hk.1 (hk.2 _)).congr fun s => ?_
    rw [hr a rfl]
    change _ = Option.map _ (Option.map some (reread a))
    cases reread a <;> rfl

/-- A value that is read as it was written. -/
theorem compiles_exact {write : α → Text} {value : Option α} (hk : ReadBy k read set)
    (ht : k.takesText = false) (hw : ∀ a ∈ value, Text.IsLine (write a))
    (hr : ∀ a ∈ value, read (write a) = .ok a) :
    Compiles registry (optional k.spelling (value.map write)) fun s =>
      some (value.elim s (set · s)) := by
  refine (compiles_optional some hk ht hw fun a ha => by rw [hr a ha]; rfl).congr
    fun s => ?_
  cases value <;> rfl

/-- A single line as it is. -/
theorem compiles_value {set : Text → Settings → Settings} {value : Option Text}
    (hk : ReadBy k Instruction.required set) (ht : k.takesText = false)
    (hv : ∀ v ∈ value, Text.IsValue v) :
    Compiles registry (optional k.spelling value) fun s => some (value.elim s (set · s)) := by
  have h : Compiles registry (optional k.spelling (value.map id)) fun s =>
      some (value.elim s (set · s)) := by
    exact compiles_exact hk ht (fun v hm => (hv v hm).toIsLine) fun v hm =>
      Instruction.required_of_isValue (hv v hm)
  rwa [Option.map_id, id] at h

/-- A text, of which the shared blanks may be lost. -/
theorem compiles_text {set : Text → Settings → Settings} {v : Text}
    (hk : ReadBy k Instruction.required set) (ht : k.takesText = true)
    (hv : Directive.IsPassage v) :
    Compiles registry (entry k.spelling v) fun s => some (set (Directive.reread v) s) := by
  have hl : Lays registry (entry k.spelling v) [(.builtin k, Directive.reread v)] :=
    Directive.Lays.text (Directive.isName_builtin k) ht hv.toIsBlock
  refine (compiles_entry hl hk.1 (hk.2 _)).congr fun s => ?_
  rw [Instruction.required_reread hv]
  rfl

theorem compiles_passage {set : Text → Settings → Settings} {value : Option Text}
    (hk : ReadBy k Instruction.required set) (ht : k.takesText = true)
    (hv : ∀ v ∈ value, Directive.IsPassage v) :
    Compiles registry (optional k.spelling value) fun s =>
      some ((value.map Directive.reread).elim s (set · s)) := by
  cases value with
  | none => exact compiles_nil
  | some v => exact compiles_text hk ht (hv v rfl)

/-- A line for a value that is not the default. -/
theorem compiles_nonDefault {isDefault : Bool} {v : Text} (reread : Option α)
    (hk : ReadBy k read set) (ht : k.takesText = false)
    (hw : isDefault = false → Text.IsLine v) (hr : isDefault = false → (read v).toOption = reread) :
    Compiles registry (nonDefault isDefault k.spelling v) fun s =>
      if isDefault then some s else reread.map (set · s) := by
  cases isDefault with
  | true => exact compiles_nil
  | false =>
    have hl : Lays registry (entry k.spelling v) [(.builtin k, v)] :=
      Directive.Lays.written_line (Directive.isName_builtin k) ht (hw rfl)
    refine (compiles_entry hl hk.1 (hk.2 _)).congr fun s => ?_
    rw [hr rfl]
    rfl

end Settings

/-- What is read where a list of words is written. -/
def Words.reread (ws : List Text) : Option (List Text) :=
  if ws = [] then some [] else (Instruction.patterns (Words.join ws)).toOption

/-- A list of words is read as it was written if and only if no word holds both quotes. -/
theorem Words.reread_eq_iff {ws : List Text} :
    reread ws = some ws ↔ ∀ w ∈ ws, ¬HoldsBothQuotes w := by
  rw [← split_join_iff]
  unfold reread Instruction.patterns split
  split
  · next h =>
    rw [h]
    exact iff_of_true rfl rfl
  · next hne =>
    cases hs : split? (join ws) with
    | none => exact iff_of_false nofun nofun
    | some vs =>
      change (Except.toOption (if vs.isEmpty then _ else _)) = some ws ↔ _
      rw [Option.some.injEq]
      by_cases hv : vs = []
      · rw [hv]
        exact iff_of_false nofun fun h => hne h.symm
      · rw [if_neg (by simpa using hv)]
        exact Option.some.injEq vs ws ▸ Iff.rfl

namespace Settings

variable {k : Keyword}

/-- A list of words. -/
theorem compiles_wordList {set : List Text → Settings → Settings} {ws : List Text}
    (hk : ReadBy k Instruction.patterns set) (ht : k.takesText = false)
    (hnil : ∀ s, set [] s = s) (hw : ∀ w ∈ ws, '\n' ∉ w) :
    Compiles registry (wordList k.spelling ws) fun s => (Words.reread ws).map (set · s) := by
  refine (compiles_nonDefault _ hk ht (fun hne => ?_) fun _ => rfl).congr fun s => ?_
  · exact (Words.isValue_join (by simpa using hne) hw).toIsLine
  · unfold Words.reread
    cases ws with
    | nil => exact congrArg some (hnil s).symm
    | cons w ws => rfl

/-- Texts, each on lines of its own, that are added to a list. -/
theorem compiles_each {name : String} {values : List Text} (get : Settings → List Text)
    (put : List Text → Settings → Settings) (hself : ∀ s, put (get s) s = s)
    (hget : ∀ vs s, get (put vs s) = vs) (hput : ∀ vs ws s, put vs (put ws s) = put vs s)
    (hone : ∀ v ∈ values, Compiles registry (entry name v) fun s =>
      some (put (get s ++ [Directive.reread v]) s)) :
    Compiles registry (each name values) fun s =>
      some (put (get s ++ values.map Directive.reread) s) := by
  induction values with
  | nil =>
    refine compiles_nil.congr fun s => ?_
    rw [List.map_nil, List.append_nil, hself]
  | cons v values ih =>
    have hrest := ih fun w hw => hone w (List.mem_cons_of_mem v hw)
    refine ((hone v List.mem_cons_self).append hrest).congr fun s => ?_
    rw [Option.bind_some, hget, hput, List.append_assoc]
    rfl

/-- A text before or behind all prompts goes to the settings where no file is entered. -/
theorem compiles_frame {v : Text} (make : Text → Instruction)
    (set : Text → Settings → Settings) (hk : k ≠ .includeFile) (ht : k.takesText = true)
    (hread : ∀ w, Instruction.ofKeyword k w = Instruction.required w >>= fun w => .ok (make w))
    (hmake : ∀ (d : Draft) (w : Text), d.entered = [] →
      d.apply .nowhere (make w) = .ok { d with settings := set w d.settings })
    (hv : Directive.IsPassage v) :
    Compiles registry (entry k.spelling v) fun s => some (set (Directive.reread v) s) := by
  have hl : Lays registry (entry k.spelling v) [(.builtin k, Directive.reread v)] :=
    Directive.Lays.text (Directive.isName_builtin k) ht hv.toIsBlock
  refine ConversationFlow.Compiles.single hl (fun h => hk (DirectiveName.builtin.inj h))
    fun d hd => ?_
  rw [Draft.carry_builtin, hread, Instruction.required_reread hv]
  change (d.apply .nowhere (make (Directive.reread v))).toOption = _
  rw [hmake d _ hd]
  rfl

end Settings

end ConversationFlow
