import ConversationFlow.Proofs.Merging.Turn
import ConversationFlow.Proofs.Value.Checks

/-!
# The marks of a turn

A mark begins with its kind and its position, each closed by a colon, and then shows a payload
that is sealed: it is one line and holds no pair of closing braces. The beginning alone says which
command the mark stands for, so that no mark of a turn begins with another one, whatever the
payloads are.
-/

namespace ConversationFlow

namespace Text

/-- Before a separator stand the same texts, if they hold equally many of them. -/
theorem separated_inj {sep : Char} {a b r s : Text} (hc : a.count sep = b.count sep)
    (h : a ++ sep :: r = b ++ sep :: s) : a = b ∧ r = s := by
  induction a generalizing b with
  | nil =>
    cases b with
    | nil => exact ⟨rfl, (List.cons.inj h).2⟩
    | cons d b =>
      obtain ⟨rfl, -⟩ := List.cons.inj h
      simp at hc
  | cons c a ih =>
    cases b with
    | nil =>
      obtain ⟨rfl, -⟩ := List.cons.inj h
      simp at hc
    | cons d b =>
      obtain ⟨rfl, hrest⟩ := List.cons.inj h
      rw [List.count_cons, List.count_cons] at hc
      obtain ⟨rfl, rfl⟩ := ih (Nat.add_right_cancel hc) hrest
      exact ⟨rfl, rfl⟩

theorem ofNat_inj {m n : Nat} (h : ofNat m = ofNat n) : m = n := by
  have hm := toNat_ofNat m
  rw [h, toNat_ofNat] at hm
  exact (Option.some.inj hm).symm

theorem colon_count_ofNat (n : Nat) : (ofNat n).count ':' = 0 :=
  List.count_eq_zero.mpr fun hm => absurd (isDigit_of_mem_ofNat hm) (by decide)

theorem startsWith_iff {p t : Text} : startsWith p t = true ↔ p <+: t := by
  rw [startsWith, ← not_iff_not, ← after_eq_none_iff, Option.not_isSome_iff_eq_none]

end Text

/-! ## Marks -/

/-- Two opening braces, with which every mark and every variable begins. -/
def openBraces : Text := ['{', '{']

/-- Two closing braces, with which every mark and every variable ends. -/
def closeBraces : Text := ['}', '}']

/-- What a mark begins with. -/
def CommandKind.opening (k : CommandKind) (index : Nat) : Text :=
  openBraces ++ (k.label ++ ':' :: (Text.ofNat index ++ [':']))

namespace MergedPrompt

/-- A payload as a mark shows it. -/
def sealed (payload : Text) : Text :=
  Text.replace closeBraces ['}', ' ', '}'] (Text.replace ['\n'] [' '] payload)

theorem placeholder_eq (k : CommandKind) (index : Nat) (payload : Text) :
    placeholder k.label index payload = k.opening index ++ (sealed payload ++ closeBraces) := by
  unfold placeholder CommandKind.opening sealed openBraces closeBraces
  simp

end MergedPrompt

namespace CommandKind

theorem label_inj {k l : CommandKind} (h : k.label = l.label) : k = l := by
  cases k <;> cases l <;> first | rfl | exact absurd h (by decide)

theorem colon_count_label (k : CommandKind) : k.label.count ':' = 0 := by
  cases k <;> decide

/-- What a text begins with says of which kind and at which position its mark is. -/
theorem opening_unique {k l : CommandKind} {i j : Nat} {t : Text} (hk : k.opening i <+: t)
    (hl : l.opening j <+: t) : k = l ∧ i = j := by
  obtain ⟨r, rfl⟩ := hk
  obtain ⟨s, hs⟩ := hl
  have braces : l.label ++ ':' :: (Text.ofNat j ++ ':' :: s) =
      k.label ++ ':' :: (Text.ofNat i ++ ':' :: r) := by
    simpa [opening, openBraces] using hs
  obtain ⟨hlabel, hrest⟩ := Text.separated_inj
    (by rw [l.colon_count_label, k.colon_count_label]) braces
  obtain ⟨hindex, -⟩ := Text.separated_inj
    (by rw [Text.colon_count_ofNat, Text.colon_count_ofNat]) hrest
  exact ⟨(label_inj hlabel).symm, (Text.ofNat_inj hindex).symm⟩

end CommandKind

/-! ## The commands of a turn -/

/-- A command of a turn: its kind, its position among those of the kind, the text that it is
listed by, and the member that it is. -/
structure Command where
  kind : CommandKind
  index : Nat
  text : Text
  step : Step

/-- The mark that stands for a command. -/
def Command.mark (c : Command) : Text :=
  MergedPrompt.placeholder c.kind.label c.index (c.kind.shown c.text)

theorem Command.opening_prefix_mark (c : Command) : c.kind.opening c.index <+: c.mark := by
  rw [mark, MergedPrompt.placeholder_eq]
  exact List.prefix_append _ _

namespace Step

/-- The command that a member is, given the members before it. -/
def command? (before : List Step) (s : Step) : Option Command :=
  s.listing?.map fun c => ⟨c.1, (listed c.1 before).length, c.2, s⟩

/-- The commands among the members that follow those before. -/
def commands (before : List Step) : List Step → List Command
  | [] => []
  | s :: rest => (command? before s).toList ++ commands (before ++ [s]) rest

/-- The parts of a turn, if commands and own texts are written in these ways. -/
def partsBy (command : Command → Text) (own : Text → Text) (before : List Step) :
    List Step → List Text
  | [] => []
  | s :: rest =>
    (match command? before s with
      | some c => command c
      | none => own s.ownText) :: partsBy command own (before ++ [s]) rest

/-- Two ways to write the parts are compared command by command and text by text. -/
theorem forall₂_partsBy {R : Text → Text → Prop} {command command' : Command → Text}
    {own own' : Text → Text} {before members : List Step}
    (hc : ∀ c ∈ commands before members, R (command c) (command' c))
    (ho : ∀ s ∈ members, R (own s.ownText) (own' s.ownText)) :
    List.Forall₂ R (partsBy command own before members)
      (partsBy command' own' before members) := by
  induction members generalizing before with
  | nil => exact .nil
  | cons s rest ih =>
    have htail := ih (fun c h => hc c (List.mem_append_right _ h))
      fun t h => ho t (List.mem_cons_of_mem s h)
    rw [partsBy, partsBy]
    cases hs : command? before s with
    | none => exact .cons (ho s List.mem_cons_self) htail
    | some c => exact .cons (hc c (List.mem_append_left _ (by simp [hs]))) htail

/-- A turn holds the mark of each command, and every other member's own text as it is. -/
theorem parts_eq (before members : List Step) :
    parts before members = partsBy Command.mark id before members := by
  induction members generalizing before with
  | nil => rfl
  | cons s rest ih =>
    rw [parts, partsBy, ih, part, command?]
    cases s.listing? <;> rfl

theorem content_ofSteps {members : List Step} (h : ∀ s ∈ members, s.Foldable) :
    (MergedPrompt.ofSteps members).content =
      Text.unlines (partsBy Command.mark id [] members) := by
  rw [MergedPrompt.ofSteps_eq_combined h, combined, parts_eq]

/-- A member that is not sent by itself is a command of the turn. -/
theorem isSome_listing_iff {s : Step} (h : s.Foldable) :
    s.listing?.isSome = true ↔ s.isAgentTurn = false := by
  obtain ⟨notLink, notControl, -⟩ := h
  cases s with
  | checkpoint | compact | newConversation | pause => cases notControl
  | elide => cases notLink
  | _ => simp [listing?, isAgentTurn]

/-- The commands are the members that are not sent by themselves, in their order. -/
theorem steps_commands (before : List Step) {members : List Step}
    (h : ∀ s ∈ members, s.Foldable) :
    (commands before members).map Command.step = members.filter fun s => !s.isAgentTurn := by
  induction members generalizing before with
  | nil => rfl
  | cons s rest ih =>
    have hs := isSome_listing_iff (h s List.mem_cons_self)
    rw [commands, List.map_append, ih _ fun t ht => h t (List.mem_cons_of_mem s ht),
      List.filter_cons, command?]
    cases hl : s.listing? with
    | none =>
      have sent : s.isAgentTurn = true := by simpa [hl] using hs
      simp [sent]
    | some c =>
      have listed : s.isAgentTurn = false := by simpa [hl] using hs
      simp [listed]

/-- The commands still to come of a kind stand behind those listed already. -/
theorem length_listed_le {before members : List Step} {c : Command}
    (h : c ∈ commands before members) : (listed c.kind before).length ≤ c.index := by
  induction members generalizing before with
  | nil => cases h
  | cons s rest ih =>
    rcases List.mem_append.mp h with h | h
    · rw [Option.mem_toList, command?, Option.map_eq_some_iff] at h
      obtain ⟨l, -, rfl⟩ := h
      exact le_rfl
    · have hle := ih h
      rw [listed_append_single, List.length_append] at hle
      omega

/-- Of two commands of one kind the later one has the higher position. -/
theorem commands_increase (before members : List Step) :
    (commands before members).Pairwise fun c d => c.kind = d.kind → c.index < d.index := by
  induction members generalizing before with
  | nil => exact .nil
  | cons s rest ih =>
    rw [commands, command?]
    cases hl : s.listing? with
    | none => exact ih _
    | some l =>
      refine List.pairwise_cons.mpr ⟨fun d hd same => ?_, ih _⟩
      have hle := length_listed_le hd
      rw [← same, listed_append_single, hl] at hle
      exact Nat.lt_of_succ_le (by simpa [Option.filter] using hle)

/-- No mark of a turn begins with another one. -/
theorem marks_prefixFree (before members : List Step) :
    (commands before members).Pairwise fun c d => ¬c.mark <+: d.mark ∧ ¬d.mark <+: c.mark := by
  refine (commands_increase before members).imp fun {c d} hlt => ⟨fun h => ?_, fun h => ?_⟩
  · obtain ⟨hkind, hindex⟩ :=
      CommandKind.opening_unique (c.opening_prefix_mark.trans h) d.opening_prefix_mark
    exact absurd hindex (hlt hkind).ne
  · obtain ⟨hkind, hindex⟩ :=
      CommandKind.opening_unique c.opening_prefix_mark (d.opening_prefix_mark.trans h)
    exact absurd hindex (hlt hkind).ne

/-! ## The commands kind by kind -/

/-- The kinds in the order in which a turn carries out its commands. -/
def commandKinds : List CommandKind := [.run, .verify, .refcat, .lsp, .help, .custom, .consult]

/-- The commands of one kind. -/
def commandsOf (k : CommandKind) (before members : List Step) : List Command :=
  (commands before members).filter fun c => decide (c.kind = k)

theorem commandsOf_cons (k : CommandKind) (before : List Step) (s : Step) (rest : List Step) :
    commandsOf k before (s :: rest) =
      ((command? before s).filter fun c => decide (c.kind = k)).toList ++
        commandsOf k (before ++ [s]) rest := by
  rw [commandsOf, commands, List.filter_append]
  cases hc : command? before s with
  | none => rfl
  | some c => by_cases hk : c.kind = k <;> simp [commandsOf, Option.filter, hk]

/-- Kind by kind, every command has its turn once. -/
theorem kinds_perm (before members : List Step) :
    (commandKinds.flatMap fun k => commandsOf k before members).Perm (commands before members) := by
  have grouped (cs : List Command) :
      (commandKinds.flatMap fun k => cs.filter fun c => decide (c.kind = k)).Perm cs := by
    induction cs with
    | nil => exact .refl _
    | cons c cs ih =>
      have once : (commandKinds.flatMap fun k => if c.kind = k then [c] else []) = [c] := by
        cases c.kind <;> rfl
      have split : (fun k => (c :: cs).filter fun d => decide (d.kind = k)) =
          fun k => (if c.kind = k then [c] else []) ++ cs.filter fun d => decide (d.kind = k) := by
        funext k
        by_cases hk : c.kind = k <;> simp [hk]
      rw [split]
      refine (List.flatMap_append_perm _ _ _).symm.trans ?_
      rw [once]
      exact ih.cons c
  exact grouped _

end Step

end ConversationFlow
