import ConversationFlow.Proofs.Directive.Indentation
import ConversationFlow.Proofs.Directive.Layout

/-!
# How a document reads

The lexer carries the directive whose text is open from line to line. Here a document is read
without it (`Directive.Reads`): a line on which a directive stands is passed with all lines of its
text, and every other line is passed alone. From this follows the fate of every line: a directive
is found on it if there is one on it and the line begins at column zero or no text is open there.
What a single line holds is left to `Directive.ofLine?`.
-/

namespace ConversationFlow.Directive

variable {registry : Registry} {line : Text} {number : Nat} {d : Directive}

/-- No blank stands at the front of the line. -/
def AtColumnZero (line : Text) : Prop := ∀ c, line.head? = some c → Text.isBlank c = false

/-- A directive stands on the line. -/
def HoldsDirective (registry : Registry) (line : Text) : Prop :=
  ∃ number d, ofLine? registry line number = some d

/-- A line at which a text ends: a comment or a directive, from column zero. -/
def EndsText (registry : Registry) (line : Text) : Prop :=
  AtColumnZero line ∧ (line.head? = some '#' ∨ HoldsDirective registry line)

/-- What the lines from a number on hold. -/
inductive Reads (registry : Registry) : Nat → List Text → List Directive → Prop where
  | nil {number : Nat} : Reads registry number [] []
  | other {number : Nat} {line : Text} {rest : List Text} {ds : List Directive}
      (free : ofLine? registry line number = none) (tail : Reads registry (number + 1) rest ds) :
      Reads registry number (line :: rest) ds
  | single {number : Nat} {line : Text} {rest : List Text} {d : Directive} {ds : List Directive}
      (head : ofLine? registry line number = some d)
      (alone : DirectiveName.takesText registry d.name = false)
      (tail : Reads registry (number + 1) rest ds) :
      Reads registry number (line :: rest) (d :: ds)
  | text {number : Nat} {line : Text} {inside rest : List Text} {d : Directive}
      {ds : List Directive} (head : ofLine? registry line number = some d)
      (takes : DirectiveName.takesText registry d.name = true)
      (goesOn : ∀ l ∈ inside, ¬ EndsText registry l)
      (ends : ∀ l, rest.head? = some l → EndsText registry l)
      (tail : Reads registry (number + 1 + inside.length) rest ds) :
      Reads registry number (line :: (inside ++ rest)) (d.withText inside :: ds)

/-! ## One line -/

theorem ofLine_line (h : ofLine? registry line number = some d) : d.line = number := by
  unfold ofLine? at h
  split at h
  · cases h
  · dsimp only at h
    split at h
    · cases h
    · obtain ⟨n, -, rfl⟩ := Option.map_eq_some_iff.mp h
      rfl

theorem ofLine_number (line : Text) (m n : Nat) :
    ofLine? registry line n = (ofLine? registry line m).map fun d => { d with line := n } := by
  unfold ofLine?
  split
  · rfl
  · dsimp only
    split
    · rfl
    · rw [Option.map_map]
      rfl

theorem holdsDirective_iff (number : Nat) :
    HoldsDirective registry line ↔ ∃ d, ofLine? registry line number = some d := by
  constructor
  · rintro ⟨m, d, h⟩
    rw [ofLine_number line m, h]
    exact ⟨_, rfl⟩
  · rintro ⟨d, h⟩
    exact ⟨number, d, h⟩

theorem not_holdsDirective (h : ofLine? registry line number = none) :
    ¬ HoldsDirective registry line := by
  rw [holdsDirective_iff number, h]
  rintro ⟨d, hd⟩
  cases hd

theorem ofLine_comment (h : line.head? = some '#') : ofLine? registry line number = none := by
  have hstart : Text.trimStart line = line := by
    rw [Text.trimStart_eq_self_iff]
    intro c hc
    rw [h] at hc
    cases hc
    rfl
  have hsplit : splitName? (Text.trim line) = none := by
    unfold splitName?
    split
    · next c t ht =>
      have hc : (Text.trim line).head? = some c := by rw [ht]; rfl
      rw [Text.trim, hstart] at hc
      have hhash := Text.head_trimEnd hc
      rw [h] at hhash
      cases hhash
      rfl
    · rfl
  unfold ofLine?
  rw [hsplit]

theorem classify_of_not_ends (h : ¬ EndsText registry line) :
    classify registry line number = .text := by
  cases line with
  | nil => rfl
  | cons c t =>
    rw [classify]
    split
    · rfl
    next hblank =>
    have hzero : AtColumnZero (c :: t) := by
      intro b hb
      cases hb
      exact Bool.not_eq_true _ ▸ hblank
    split
    · next hc => exact absurd ⟨hzero, .inl (congrArg some hc)⟩ h
    next hc =>
    cases ho : ofLine? registry (c :: t) number with
    | none => rfl
    | some d => exact absurd ⟨hzero, .inr ⟨number, d, ho⟩⟩ h

/-- A text ends at a comment, on which no directive stands, or at the next directive. -/
theorem classify_of_ends (h : EndsText registry line) (number : Nat) :
    classify registry line number = .comment ∧ ofLine? registry line number = none ∨
    ∃ d, classify registry line number = .starts d ∧ ofLine? registry line number = some d := by
  obtain ⟨hzero, hhash | hholds⟩ := h
  · refine .inl ⟨?_, ofLine_comment hhash⟩
    cases line with
    | nil => cases hhash
    | cons c t =>
      cases hhash
      rfl
  · obtain ⟨d, hd⟩ := (holdsDirective_iff number).mp hholds
    refine .inr ⟨d, ?_, hd⟩
    cases line with
    | nil => cases hd
    | cons c t =>
      have hc : c ≠ '#' := by
        rintro rfl
        rw [ofLine_comment rfl] at hd
        cases hd
      rw [classify, if_neg, if_neg hc, hd]
      rw [hzero c rfl]
      exact Bool.false_ne_true

/-! ## The lexer reads -/

theorem ofLines_free (h : ofLine? registry line number = none) (ls : List Text) :
    ofLines registry none number (line :: ls) = ofLines registry none (number + 1) ls := by
  rw [ofLines, feed, h]
  rfl

theorem ofLines_starts (h : ofLine? registry line number = some d) (ls : List Text) :
    ofLines registry none number (line :: ls) =
      (start registry d).1 ++ ofLines registry (start registry d).2 (number + 1) ls := by
  rw [ofLines, feed, h]

theorem ofLines_goesOn (h : ¬ EndsText registry line) (taken ls : List Text) :
    ofLines registry (some (d, taken)) number (line :: ls) =
      ofLines registry (some (d, line :: taken)) (number + 1) ls := by
  rw [ofLines, feed, classify_of_not_ends h]
  rfl

/-- The line that ends a text does what it does where none is open. -/
theorem ofLines_ends (h : EndsText registry line) (taken ls : List Text) :
    ofLines registry (some (d, taken)) number (line :: ls) =
      d.withText taken.reverse :: ofLines registry none number (line :: ls) := by
  rcases classify_of_ends h number with ⟨hc, ho⟩ | ⟨e, hc, ho⟩
  · rw [ofLines_free ho, ofLines, feed, hc]
    rfl
  · rw [ofLines_starts ho, ofLines, feed, hc]
    rfl

/-- With a text open, the lines up to its end go to it, and the rest is read as if none were. -/
theorem ofLines_reads (ls : List Text) (number : Nat) :
    Reads registry number ls (ofLines registry none number ls) ∧
      ∀ d taken, ∃ inside rest, ls = inside ++ rest ∧ (∀ l ∈ inside, ¬ EndsText registry l) ∧
        (∀ l, rest.head? = some l → EndsText registry l) ∧
        ofLines registry (some (d, taken)) number ls =
          d.withText (taken.reverse ++ inside) ::
            ofLines registry none (number + inside.length) rest ∧
        Reads registry (number + inside.length) rest
          (ofLines registry none (number + inside.length) rest) := by
  induction ls generalizing number with
  | nil =>
    refine ⟨.nil, fun d taken => ⟨[], [], rfl, fun l hl => absurd hl List.not_mem_nil,
      fun l hl => (by cases hl), ?_, .nil⟩⟩
    rw [List.append_nil]
    rfl
  | cons line ls ih =>
    obtain ⟨hfree, hopen⟩ := ih (number + 1)
    have hreads : Reads registry number (line :: ls)
        (ofLines registry none number (line :: ls)) := by
      cases ho : ofLine? registry line number with
      | none =>
        rw [ofLines_free ho]
        exact .other ho hfree
      | some d =>
        rw [ofLines_starts ho, start]
        cases ht : DirectiveName.takesText registry d.name with
        | false => exact .single ho ht hfree
        | true =>
          obtain ⟨inside, rest, rfl, hinside, hrest, heq, htail⟩ := hopen d []
          rw [if_pos rfl, List.nil_append, heq]
          exact .text ho ht hinside hrest htail
    refine ⟨hreads, fun d taken => ?_⟩
    by_cases hends : EndsText registry line
    · refine ⟨[], line :: ls, rfl, fun l hl => absurd hl List.not_mem_nil, fun l hl => ?_, ?_,
        hreads⟩
      · cases hl
        exact hends
      · rw [ofLines_ends hends, List.append_nil]
        rfl
    · obtain ⟨inside, rest, rfl, hinside, hrest, heq, htail⟩ := hopen d (line :: taken)
      have hnumber : number + (line :: inside).length = number + 1 + inside.length := by
        rw [List.length_cons]
        omega
      refine ⟨line :: inside, rest, rfl, List.forall_mem_cons.mpr ⟨hends, hinside⟩, hrest, ?_, ?_⟩
      · rw [ofLines_goesOn hends, heq, List.reverse_cons, List.append_assoc, hnumber]
        rfl
      · rw [hnumber]
        exact htail

theorem ofDocument_reads (registry : Registry) (text : Text) :
    Reads registry 1 (Text.lines text) (ofDocument registry text) :=
  (ofLines_reads (Text.lines text) 1).1

/-! ## What is read -/

/-- The text of a directive is open behind the lines that were passed. -/
def TextOpen (registry : Registry) (ds : List Directive) (number : Nat) (passed : List Text) :
    Prop :=
  ∃ before keyword inside, passed = before ++ keyword :: inside ∧
    (∃ d ∈ ds, DirectiveName.takesText registry d.name = true ∧ d.line = number + before.length) ∧
    ∀ l ∈ inside, ¬ EndsText registry l

variable {ds : List Directive} {ls passed : List Text}

theorem not_textOpen_nil : ¬ TextOpen registry ds number [] := by
  rintro ⟨before, keyword, inside, hnil, -⟩
  cases before <;> cases hnil

/-- Lines without a directive open no text. -/
theorem textOpen_append_iff {xs : List Text} (h : ∀ d ∈ ds, number + xs.length ≤ d.line) :
    TextOpen registry ds number (xs ++ passed) ↔
      TextOpen registry ds (number + xs.length) passed := by
  constructor
  · rintro ⟨before, keyword, inside, heq, ⟨d, hd, htakes, hline⟩, hinside⟩
    have hlong := h d hd
    rcases List.append_eq_append_iff.mp heq with ⟨ys, rfl, hpassed⟩ | ⟨ys, rfl, hys⟩
    · refine ⟨ys, keyword, inside, hpassed, ⟨d, hd, htakes, ?_⟩, hinside⟩
      rw [hline, List.length_append, Nat.add_assoc]
    · rw [hline, List.length_append] at hlong
      obtain rfl : ys = [] := List.eq_nil_of_length_eq_zero (by omega)
      refine ⟨[], keyword, inside, hys.symm, ⟨d, hd, htakes, ?_⟩, hinside⟩
      rw [hline, List.append_nil]
      rfl
  · rintro ⟨before, keyword, inside, rfl, ⟨d, hd, htakes, hline⟩, hinside⟩
    refine ⟨xs ++ before, keyword, inside, (List.append_assoc ..).symm, ⟨d, hd, htakes, ?_⟩,
      hinside⟩
    rw [hline, List.length_append, Nat.add_assoc]

/-- A directive opens its text behind its own line, up to where the text ends. -/
theorem textOpen_cons_iff {first : Text} (hd : d.line = number) :
    TextOpen registry (d :: ds) number (first :: passed) ↔
      (DirectiveName.takesText registry d.name = true ∧ ∀ l ∈ passed, ¬ EndsText registry l) ∨
        TextOpen registry ds number (first :: passed) := by
  constructor
  · rintro ⟨before, keyword, inside, heq, ⟨e, he, htakes, hline⟩, hinside⟩
    rcases List.mem_cons.mp he with rfl | he
    · obtain rfl : before = [] := List.eq_nil_of_length_eq_zero (by omega)
      obtain ⟨-, rfl⟩ := List.cons.inj heq
      exact .inl ⟨htakes, hinside⟩
    · exact .inr ⟨before, keyword, inside, heq, ⟨e, he, htakes, hline⟩, hinside⟩
  · rintro (⟨htakes, hinside⟩ | ⟨before, keyword, inside, heq, ⟨e, he, hopens⟩, hinside⟩)
    · exact ⟨[], first, passed, rfl, ⟨d, List.mem_cons_self, htakes, hd⟩, hinside⟩
    · exact ⟨before, keyword, inside, heq, ⟨e, List.mem_cons_of_mem d he, hopens⟩, hinside⟩

/-- A directive is found on its own line only. -/
theorem emitted_cons_iff {first : Text} (hd : d.line = number) :
    (∃ e ∈ d :: ds, e.line = number + (first :: passed).length) ↔
      ∃ e ∈ ds, e.line = number + (first :: passed).length := by
  constructor
  · rintro ⟨e, he, hline⟩
    rcases List.mem_cons.mp he with rfl | he
    · rw [hd, List.length_cons] at hline
      omega
    · exact ⟨e, he, hline⟩
  · rintro ⟨e, he, hline⟩
    exact ⟨e, List.mem_cons_of_mem d he, hline⟩

/-- A directive is what its line holds; where it takes text, the text goes from below its line to
where it ends. -/
def StandsIn (registry : Registry) (number : Nat) (ls : List Text) (d : Directive) : Prop :=
  ∃ before line below value, ls = before ++ line :: below ∧ d.line = number + before.length ∧
    ofLine? registry line d.line = some { d with value } ∧
    (DirectiveName.takesText registry d.name = false → d.value = value) ∧
    (DirectiveName.takesText registry d.name = true → ∃ inside rest, below = inside ++ rest ∧
      (∀ l ∈ inside, ¬ EndsText registry l) ∧ (∀ l, rest.head? = some l → EndsText registry l) ∧
      IsTextValue value inside d.value)

theorem StandsIn.append (xs : List Text) (h : StandsIn registry (number + xs.length) ls d) :
    StandsIn registry number (xs ++ ls) d := by
  obtain ⟨before, line, below, value, rfl, hline, hread⟩ := h
  refine ⟨xs ++ before, line, below, value, (List.append_assoc ..).symm, ?_, hread⟩
  rw [hline, List.length_append, Nat.add_assoc]

namespace Reads

/-- Directives stand on the lines that are read. -/
theorem le_line (h : Reads registry number ls ds) : ∀ d ∈ ds, number ≤ d.line := by
  induction h with
  | nil => exact fun d hd => absurd hd List.not_mem_nil
  | other free tail ih => exact fun d hd => Nat.le_of_succ_le (ih d hd)
  | single head alone tail ih =>
    refine List.forall_mem_cons.mpr ⟨(ofLine_line head).ge, ?_⟩
    exact fun d hd => Nat.le_of_succ_le (ih d hd)
  | text head takes goesOn ends tail ih =>
    refine List.forall_mem_cons.mpr ⟨?_, fun d hd => ?_⟩
    · rw [withText_eq]
      exact (ofLine_line head).ge
    · have hle := ih d hd
      omega

/-- Each directive stands below the one before it. -/
theorem pairwise_line (h : Reads registry number ls ds) :
    ds.Pairwise fun d e => d.line < e.line := by
  induction h with
  | nil => exact .nil
  | other free tail ih => exact ih
  | single head alone tail ih =>
    refine List.pairwise_cons.mpr ⟨fun e he => ?_, ih⟩
    rw [ofLine_line head]
    exact tail.le_line e he
  | text head takes goesOn ends tail ih =>
    refine List.pairwise_cons.mpr ⟨fun e he => ?_, ih⟩
    rw [withText_eq, ofLine_line head]
    have hle := tail.le_line e he
    omega

/-- The fate of a line depends on what it holds, where it begins and whether a text is open. -/
theorem emitted_iff (h : Reads registry number ls ds) {after : List Text}
    (hls : ls = passed ++ line :: after) :
    (∃ d ∈ ds, d.line = number + passed.length) ↔
      HoldsDirective registry line ∧ (AtColumnZero line ∨ ¬ TextOpen registry ds number passed) := by
  -- Below the first line what is read is found by the rest, and no text of that line is open.
  have below {number : Nat} {passed : List Text} {ds : List Directive} (xs : List Text)
      (hle : ∀ d ∈ ds, number + xs.length ≤ d.line)
      (ih : (∃ d ∈ ds, d.line = number + xs.length + passed.length) ↔
        HoldsDirective registry line ∧
          (AtColumnZero line ∨ ¬ TextOpen registry ds (number + xs.length) passed)) :
      (∃ d ∈ ds, d.line = number + (xs ++ passed).length) ↔
        HoldsDirective registry line ∧
          (AtColumnZero line ∨ ¬ TextOpen registry ds number (xs ++ passed)) := by
    rw [textOpen_append_iff hle, ← ih, List.length_append, Nat.add_assoc]
  induction h generalizing passed with
  | nil => cases passed <;> cases hls
  | @other number first rest ds free tail ih =>
    cases passed with
    | nil =>
      obtain ⟨rfl, rfl⟩ := List.cons.inj hls
      refine ⟨?_, fun hr => absurd hr.1 (not_holdsDirective free)⟩
      rintro ⟨d, hd, hline⟩
      have hle := tail.le_line d hd
      rw [hline] at hle
      exact absurd hle (Nat.not_succ_le_self number)
    | cons x passed =>
      obtain ⟨rfl, rfl⟩ := List.cons.inj hls
      exact below [first] tail.le_line (ih rfl)
  | @single number first rest d ds head alone tail ih =>
    cases passed with
    | nil =>
      obtain ⟨rfl, rfl⟩ := List.cons.inj hls
      exact iff_of_true ⟨d, List.mem_cons_self, ofLine_line head⟩
        ⟨⟨number, d, head⟩, .inr not_textOpen_nil⟩
    | cons x passed =>
      obtain ⟨rfl, rfl⟩ := List.cons.inj hls
      have hopen : TextOpen registry (d :: ds) number (first :: passed) ↔
          TextOpen registry ds number (first :: passed) := by
        rw [textOpen_cons_iff (ofLine_line head), alone]
        exact or_iff_right fun hl => Bool.false_ne_true hl.1
      rw [emitted_cons_iff (ofLine_line head), hopen]
      exact below [first] tail.le_line (ih rfl)
  | @text number first inside rest d ds head takes goesOn ends tail ih =>
    have hline : (d.withText inside).line = number := by
      rw [withText_eq]
      exact (ofLine_line head : d.line = number)
    have htakes : DirectiveName.takesText registry (d.withText inside).name = true := by
      rw [withText_eq]
      exact takes
    cases passed with
    | nil =>
      obtain ⟨rfl, rfl⟩ := List.cons.inj hls
      exact iff_of_true ⟨_, List.mem_cons_self, hline⟩
        ⟨⟨number, d, head⟩, .inr not_textOpen_nil⟩
    | cons x passed =>
      obtain ⟨rfl, hbelow⟩ := List.cons.inj hls
      have hplace : (∃ further, passed = inside ++ further ∧ rest = further ++ line :: after) ∨
          ∃ left, inside = passed ++ line :: left := by
        rcases List.append_eq_append_iff.mp hbelow with hfurther | ⟨left, hinside, hleft⟩
        · exact .inl hfurther
        rcases List.cons_eq_append_iff.mp hleft with ⟨rfl, hrest⟩ | ⟨left, rfl, -⟩
        · exact .inl ⟨[], by rw [hinside, List.append_nil, List.append_nil], hrest⟩
        · exact .inr ⟨left, hinside⟩
      rw [emitted_cons_iff hline, textOpen_cons_iff hline, and_iff_right htakes]
      have hnumber : number + (first :: inside).length = number + 1 + inside.length := by
        rw [List.length_cons]
        omega
      rcases hplace with ⟨further, rfl, rfl⟩ | ⟨left, rfl⟩
      · have hrest := @below number further ds (first :: inside)
          (by rw [hnumber]; exact tail.le_line) (by rw [hnumber]; exact ih rfl)
        rw [List.cons_append] at hrest
        rw [hrest]
        refine and_congr_right fun hholds => ?_
        cases further with
        | nil =>
          -- The line that ends the text begins at column zero.
          have hzero := (ends line rfl).1
          exact iff_of_true (.inl hzero) (.inl hzero)
        | cons y further =>
          have hclosed : ¬ ∀ l ∈ inside ++ y :: further, ¬ EndsText registry l := fun hall =>
            hall y (List.mem_append_right inside List.mem_cons_self) (ends y rfl)
          rw [or_iff_right hclosed]
      · -- The line belongs to the text: it does not end it, and the text is open.
        refine iff_of_false ?_ ?_
        · rintro ⟨e, he, hline⟩
          have hle := tail.le_line e he
          rw [List.length_append, List.length_cons] at hle
          rw [List.length_cons] at hline
          omega
        · rintro ⟨hholds, hzero | hopen⟩
          · exact goesOn line (List.mem_append_right passed List.mem_cons_self)
              ⟨hzero, .inr hholds⟩
          · exact hopen (.inl fun l hl => goesOn l (List.mem_append_left _ hl))

/-- What is read stands in the lines. -/
theorem standsIn (h : Reads registry number ls ds) : ∀ d ∈ ds, StandsIn registry number ls d := by
  induction h with
  | nil => exact fun d hd => absurd hd List.not_mem_nil
  | @other number first rest ds free tail ih =>
    exact fun d hd => StandsIn.append [first] (ih d hd)
  | @single number first rest d ds head alone tail ih =>
    obtain rfl := ofLine_line head
    refine List.forall_mem_cons.mpr ⟨?_, fun e he => StandsIn.append [first] (ih e he)⟩
    refine ⟨[], first, rest, d.value, rfl, rfl, head, fun _ => rfl, fun htakes => ?_⟩
    rw [alone] at htakes
    cases htakes
  | @text number first inside rest d ds head takes goesOn ends tail ih =>
    obtain rfl := ofLine_line head
    refine List.forall_mem_cons.mpr ⟨?_, fun e he => ?_⟩
    · rw [withText_eq]
      exact ⟨[], first, inside ++ rest, d.value, rfl, rfl, head,
        fun halone => (by cases takes.symm.trans halone),
        fun _ => ⟨inside, rest, rfl, goesOn, ends, isTextValue_taken d.value inside⟩⟩
    · refine StandsIn.append (first :: inside) ?_
      rw [List.length_cons, Nat.add_comm inside.length, ← Nat.add_assoc]
      exact ih e he

end Reads

/-- A document holds its directives in the order of their lines. One is found on a line if and only
if one stands there and the line begins at column zero or no text is open. Each has the value
of its line, and one that takes text the lines up to where that ends. -/
theorem ofDocument_reading (registry : Registry) (text : Text) :
    ((ofDocument registry text).Pairwise fun d e => d.line < e.line) ∧
    (∀ before line after, Text.lines text = before ++ line :: after →
      ((∃ d ∈ ofDocument registry text, d.line = 1 + before.length) ↔
        HoldsDirective registry line ∧
          (AtColumnZero line ∨ ¬ TextOpen registry (ofDocument registry text) 1 before))) ∧
    ∀ d ∈ ofDocument registry text, StandsIn registry 1 (Text.lines text) d := by
  have h := ofDocument_reads registry text
  exact ⟨h.pairwise_line, fun before line after hls => h.emitted_iff hls, h.standsIn⟩

/-- A comment closes the text of a prompt: before it an indented directive belongs to the text, and
behind it one is found. -/
theorem comment_closes_text :
    let ds := ofDocument .empty "PROMPT one\n  RUN two\n\n# three\n  MODEL four".toList
    TextOpen .empty ds 1 ["PROMPT one".toList] ∧
      ¬ TextOpen .empty ds 1 ["PROMPT one".toList, "  RUN two".toList, [], "# three".toList] := by
  intro ds
  obtain ⟨-, hfound, -⟩ := ofDocument_reading .empty
    "PROMPT one\n  RUN two\n\n# three\n  MODEL four".toList
  have hindented (line : Text) (h : line.head? = some ' ') : ¬ AtColumnZero line := by
    intro hzero
    cases hzero ' ' h
  constructor
  · have hrun := hfound ["PROMPT one".toList] "  RUN two".toList
      [[], "# three".toList, "  MODEL four".toList] (by decide +kernel)
    by_contra hopen
    obtain ⟨d, hd, hline⟩ := hrun.mpr ⟨⟨2, _, rfl⟩, .inr hopen⟩
    exact absurd hline ((by decide +kernel : ∀ d ∈ ds, d.line ≠ 2) d hd)
  · have hmodel := hfound ["PROMPT one".toList, "  RUN two".toList, [], "# three".toList]
      "  MODEL four".toList [] (by decide +kernel)
    obtain ⟨-, hzero | hopen⟩ := hmodel.mp (by decide +kernel)
    · exact absurd hzero (hindented _ rfl)
    · exact hopen

end ConversationFlow.Directive
