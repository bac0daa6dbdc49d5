import ConversationFlow.Command.Runner
import ConversationFlow.Proofs.Value.Quoting

/-!
# The words of a command line

A command line is read by a grammar that is given here by itself: words between blanks, each put
together of segments that are quoted, escaped or plain, and lines that a backslash joins
(`CommandWords.Line`). Reading a line of the grammar gives the words that it denotes, and a text is
refused exactly if one of its quotes is not closed or a backslash ends it (`Unfinished`). What the
words are used for is not said. Without backslashes the grammar is that of directive values, whose
reader and this one then agree.
-/

namespace ConversationFlow.CommandWords

/-! ## The grammar -/

/-- What stands between double quotes, and the text that it denotes. A backslash escapes the
character behind it, or else stands for itself. -/
inductive Doubled : Text → Text → Prop where
  | done : Doubled [] []
  | escaped {c : Char} {t v : Text} : isEscapable c = true → Doubled t v →
      Doubled ('\\' :: c :: t) (c :: v)
  | backslash {c : Char} {t v : Text} : isEscapable c = false → Doubled t v →
      Doubled ('\\' :: c :: t) ('\\' :: c :: v)
  | plain {c : Char} {t v : Text} : c ≠ '"' → c ≠ '\\' → Doubled t v → Doubled (c :: t) (c :: v)

/-- A character that stands for itself outside quotes, as part of a word. -/
structure IsPlain (c : Char) : Prop where
  noQuote : ¬Words.IsQuote c
  noBackslash : c ≠ '\\'
  noBlank : Text.isBlank c = false

/-- A segment of a word, and the text that it denotes. -/
inductive Segment : Text → Text → Prop where
  | single {t : Text} : '\'' ∉ t → Segment ('\'' :: (t ++ ['\''])) t
  | double {t v : Text} : Doubled t v → Segment ('"' :: (t ++ ['"'])) v
  | escaped {c : Char} : c ≠ '\n' → Segment ['\\', c] [c]
  | plain {c : Char} : IsPlain c → Segment [c] [c]

/-- A backslash and a line feed, which join two lines and stand for nothing. -/
def lineJoin : Text := ['\\', '\n']

/-- At least one segment, and the texts of all segments in a row. Lines may be joined behind each. -/
inductive Word : Text → Text → Prop where
  | segment {s u : Text} : Segment s u → Word s u
  | join {w u : Text} : Word w u → Word (w ++ lineJoin) u
  | append {w u w' u' : Text} : Word w u → Word w' u' → Word (w ++ w') (u ++ u')

/-- Words with blanks between them, and the texts of the words. Blanks and joined lines may also
stand in front of each. -/
inductive Line : Text → List Text → Prop where
  | done : Line [] []
  | blank {c : Char} {t : Text} {ws : List Text} : Text.isBlank c = true → Line t ws → Line (c :: t) ws
  | join {t : Text} {ws : List Text} : Line t ws → Line (lineJoin ++ t) ws
  | last {w u : Text} : Word w u → Line w [u]
  | word {w u : Text} {c : Char} {t : Text} {ws : List Text} : Word w u → Text.isBlank c = true →
      Line t ws → Line (w ++ c :: t) (u :: ws)

/-- What opens behind whole words and is not closed: a quote, or a backslash with nothing behind. -/
inductive Open : CommandFault → Text → Prop where
  | single {t : Text} : '\'' ∉ t → Open .openSingleQuote ('\'' :: t)
  | double {t v : Text} : Doubled t v → Open .openDoubleQuote ('"' :: t)
  | doubleBackslash {t v : Text} : Doubled t v → Open .openDoubleQuote ('"' :: (t ++ ['\\']))
  | backslash : Open .trailingBackslash ['\\']

/-- A line of the grammar up to something that is open. -/
inductive Unfinished (fault : CommandFault) : Text → Prop where
  | intro {front t : Text} {ws : List Text} : Line front ws → Open fault t →
      Unfinished fault (front ++ t)

/-! ## One step of the reader -/

theorem scan_single_close (word : Option Text) (t : Text) :
    scan .single word ('\'' :: t) = scan .bare word t := if_pos rfl

theorem scan_single_inside {c : Char} (hc : c ≠ '\'') (word : Option Text) (t : Text) :
    scan .single word (c :: t) = scan .single (some (c :: word.getD [])) t := if_neg hc

theorem scan_double_close (word : Option Text) (t : Text) :
    scan .double word ('"' :: t) = scan .bare word t := by
  cases t <;> rfl

theorem scan_double_escaped {c : Char} (hc : isEscapable c = true) (word : Option Text) (t : Text) :
    scan .double word ('\\' :: c :: t) = scan .double (some (c :: word.getD [])) t := by
  refine (if_neg (by decide)).trans (if_pos ?_)
  simpa using hc

/-- Between double quotes a backslash stands for itself in front of a character that it does not
escape. -/
theorem scan_double_backslash {c : Char} (hc : isEscapable c = false) (word : Option Text)
    (t : Text) : scan .double word ('\\' :: c :: t) =
      scan .double (some ('\\' :: word.getD [])) (c :: t) := by
  refine (if_neg (by decide)).trans (if_neg ?_)
  simpa using hc

theorem scan_double_plain {c : Char} (hq : c ≠ '"') (hb : c ≠ '\\') (word : Option Text)
    (t : Text) : scan .double word (c :: t) = scan .double (some (c :: word.getD [])) t := by
  cases t with
  | nil => exact if_neg hq
  | cons d t =>
    refine (if_neg hq).trans (if_neg ?_)
    simp [hb]

theorem scan_openSingle (word : Option Text) (t : Text) :
    scan .bare word ('\'' :: t) = scan .single (some (word.getD [])) t := by
  cases t <;> rfl

theorem scan_openDouble (word : Option Text) (t : Text) :
    scan .bare word ('"' :: t) = scan .double (some (word.getD [])) t := by
  cases t <;> rfl

theorem scan_lineJoin (word : Option Text) (t : Text) :
    scan .bare word (lineJoin ++ t) = scan .bare word t := rfl

theorem scan_escaped {c : Char} (hc : c ≠ '\n') (word : Option Text) (t : Text) :
    scan .bare word ('\\' :: c :: t) = scan .bare (some (c :: word.getD [])) t := by
  refine (if_pos rfl).trans ?_
  rw [if_neg hc]
  rfl

theorem scan_plain {c : Char} (hc : IsPlain c) (word : Option Text) (t : Text) :
    scan .bare word (c :: t) = scan .bare (some (c :: word.getD [])) t := by
  obtain ⟨hquote, hbackslash, hblank⟩ := hc
  obtain ⟨hdouble, hsingle⟩ := not_or.mp hquote
  have hblank' : ¬Text.isBlank c = true := by simp [hblank]
  cases t with
  | nil => exact (if_neg hbackslash).trans <| (if_neg hsingle).trans <| (if_neg hdouble).trans <|
      if_neg hblank'
  | cons d t => exact (if_neg hbackslash).trans <| (if_neg hsingle).trans <|
      (if_neg hdouble).trans <| if_neg hblank'

theorem scan_blank {c : Char} (hc : Text.isBlank c = true) (word : Option Text) (t : Text) :
    scan .bare word (c :: t) = (scan .bare none t).map (Words.finish word ++ ·) := by
  have hne (d : Char) (hd : Text.isBlank d = false) : c ≠ d := by
    rintro rfl
    cases hc.symm.trans hd
  have hbackslash : c ≠ '\\' := hne _ (by decide)
  have hsingle : c ≠ '\'' := hne _ (by decide)
  have hdouble : c ≠ '"' := hne _ (by decide)
  cases t with
  | nil =>
    refine (if_neg hbackslash).trans <| (if_neg hsingle).trans <| (if_neg hdouble).trans <|
      (if_pos hc).trans ?_
    exact congrArg Except.ok (List.append_nil _).symm
  | cons d t => exact (if_neg hbackslash).trans <| (if_neg hsingle).trans <|
      (if_neg hdouble).trans <| if_pos hc

/-! ## What is read of the grammar -/

theorem plain_of_not_escapable {c : Char} (h : isEscapable c = false) : c ≠ '"' ∧ c ≠ '\\' := by
  constructor <;> rintro rfl <;> cases h

theorem scan_single {s : Text} (h : '\'' ∉ s) (r t : Text) :
    scan .single (some r) (s ++ t) = scan .single (some (s.reverse ++ r)) t := by
  induction s generalizing r with
  | nil => rfl
  | cons c s ih =>
    obtain ⟨hc, hs⟩ := List.ne_and_not_mem_of_not_mem_cons h
    rw [List.cons_append, scan_single_inside (Ne.symm hc), Option.getD_some, ih hs,
      List.reverse_cons, List.append_assoc]
    rfl

theorem Doubled.scan {s v : Text} (h : Doubled s v) (r t : Text) :
    scan .double (some r) (s ++ t) = scan .double (some (v.reverse ++ r)) t := by
  induction h generalizing r with
  | done => rfl
  | @escaped c s v hc _ ih =>
    rw [List.cons_append, List.cons_append, scan_double_escaped hc, Option.getD_some, ih,
      List.reverse_cons, List.append_assoc]
    rfl
  | @backslash c s v hc _ ih =>
    obtain ⟨hquote, hbackslash⟩ := plain_of_not_escapable hc
    rw [List.cons_append, List.cons_append, scan_double_backslash hc,
      scan_double_plain hquote hbackslash, Option.getD_some, Option.getD_some, ih,
      List.reverse_cons, List.reverse_cons, List.append_assoc, List.append_assoc]
    rfl
  | @plain c s v hquote hbackslash _ ih =>
    rw [List.cons_append, scan_double_plain hquote hbackslash, Option.getD_some, ih,
      List.reverse_cons, List.append_assoc]
    rfl

theorem Segment.scan {s u : Text} (h : Segment s u) (word : Option Text) (t : Text) :
    scan .bare word (s ++ t) = scan .bare (some (u.reverse ++ word.getD [])) t := by
  cases h with
  | @single u hu =>
    rw [List.cons_append, List.append_assoc, scan_openSingle, scan_single hu]
    exact scan_single_close _ t
  | @double s u hs =>
    rw [List.cons_append, List.append_assoc, scan_openDouble, hs.scan]
    exact scan_double_close _ t
  | escaped hc => exact scan_escaped hc word t
  | plain hc => exact scan_plain hc word t

theorem Word.scan {w u : Text} (h : Word w u) (word : Option Text) (t : Text) :
    scan .bare word (w ++ t) = scan .bare (some (u.reverse ++ word.getD [])) t := by
  induction h generalizing word t with
  | segment hs => exact hs.scan word t
  | join _ ih => rw [List.append_assoc, ih, scan_lineJoin]
  | append _ _ ih ih' =>
    rw [List.append_assoc, ih, ih', Option.getD_some, List.reverse_append, List.append_assoc]

/-- Behind a line of the grammar some of its words are complete, and the last may go on. -/
theorem Line.scan {front : Text} {ws : List Text} (h : Line front ws) :
    ∃ complete word, ws = complete ++ Words.finish word ∧
      ∀ t, scan .bare none (front ++ t) = (scan .bare word t).map (complete ++ ·) := by
  have here (x : Except CommandFault (List Text)) : x = x.map ([] ++ ·) := by
    cases x <;> rfl
  induction h with
  | done => exact ⟨[], none, rfl, fun t => here _⟩
  | blank hc _ ih =>
    obtain ⟨complete, word, hws, hscan⟩ := ih
    refine ⟨complete, word, hws, fun t => ?_⟩
    rw [List.cons_append, scan_blank hc, hscan]
    exact (here _).symm
  | join _ ih =>
    obtain ⟨complete, word, hws, hscan⟩ := ih
    refine ⟨complete, word, hws, fun t => ?_⟩
    rw [List.append_assoc, scan_lineJoin, hscan]
  | @last w u hw =>
    refine ⟨[], some (u.reverse ++ []), by simp [Words.finish], fun t => ?_⟩
    rw [hw.scan]
    exact here _
  | @word w u c t ws hw hc _ ih =>
    obtain ⟨complete, word, rfl, hscan⟩ := ih
    refine ⟨u :: complete, word, rfl, fun t => ?_⟩
    rw [List.append_assoc, List.cons_append, hw.scan, scan_blank hc, hscan]
    cases CommandWords.scan .bare word t with
    | error e => rfl
    | ok ws => simp [Except.map, Words.finish]

theorem Open.scan {fault : CommandFault} {t : Text} (h : Open fault t) (word : Option Text) :
    scan .bare word t = .error fault := by
  cases h with
  | @single t ht =>
    have hread := scan_single ht (word.getD []) []
    rw [List.append_nil] at hread
    exact (scan_openSingle word t).trans hread
  | @double t v ht =>
    have hread := ht.scan (word.getD []) []
    rw [List.append_nil] at hread
    exact (scan_openDouble word t).trans hread
  | doubleBackslash ht =>
    rw [scan_openDouble, ht.scan]
    rfl
  | backslash => rfl

/-! ## Every text is of the grammar, or unfinished -/

/-- Behind an opening double quote stands a closing one, or the text ends between quotes. -/
theorem exists_doubled : ∀ t : Text, (∃ s v rest, Doubled s v ∧ t = s ++ '"' :: rest) ∨
    ∃ s v, Doubled s v ∧ (t = s ∨ t = s ++ ['\\'])
  | [] => .inr ⟨[], [], .done, .inl rfl⟩
  | [c] => by
    by_cases hquote : c = '"'
    · exact .inl ⟨[], [], [], .done, by rw [hquote]; rfl⟩
    by_cases hbackslash : c = '\\'
    · exact .inr ⟨[], [], .done, .inr (by rw [hbackslash]; rfl)⟩
    · exact .inr ⟨[c], [c], .plain hquote hbackslash .done, .inl rfl⟩
  | c :: d :: t => by
    by_cases hquote : c = '"'
    · exact .inl ⟨[], [], d :: t, .done, by rw [hquote]; rfl⟩
    by_cases hbackslash : c = '\\'
    · -- The backslash takes the next character with it, whether it escapes that or not.
      obtain ⟨e, hpair⟩ : ∃ e : Text, ∀ {s v}, Doubled s v → Doubled (c :: d :: s) (e ++ v) := by
        subst hbackslash
        cases hd : isEscapable d with
        | true => exact ⟨[d], .escaped hd⟩
        | false => exact ⟨['\\', d], .backslash hd⟩
      rcases exists_doubled t with ⟨s, v, rest, hs, rfl⟩ | ⟨s, v, hs, ht⟩
      · exact .inl ⟨_, _, rest, hpair hs, rfl⟩
      · exact .inr ⟨_, _, hpair hs, ht.imp (congrArg (c :: d :: ·)) (congrArg (c :: d :: ·))⟩
    · rcases exists_doubled (d :: t) with ⟨s, v, rest, hs, ht⟩ | ⟨s, v, hs, ht⟩
      · exact .inl ⟨_, _, rest, .plain hquote hbackslash hs, congrArg (c :: ·) ht⟩
      · exact .inr ⟨_, _, .plain hquote hbackslash hs,
          ht.imp (congrArg (c :: ·)) (congrArg (c :: ·))⟩

theorem Segment.ne_nil {s u : Text} (h : Segment s u) : s ≠ [] := by
  cases h <;> exact List.cons_ne_nil _ _

/-- What a text begins with. -/
theorem exists_front (c : Char) (t : Text) :
    Text.isBlank c = true ∨ (∃ rest, c :: t = lineJoin ++ rest) ∨
      (∃ s u rest, Segment s u ∧ c :: t = s ++ rest) ∨ ∃ fault, Open fault (c :: t) := by
  by_cases hblank : Text.isBlank c = true
  · exact .inl hblank
  refine .inr ?_
  by_cases hsingle : c = '\''
  · subst hsingle
    refine .inr ?_
    by_cases hclosed : '\'' ∈ t
    · obtain ⟨s, rest, rfl, hs⟩ := List.eq_append_cons_of_mem hclosed
      exact .inl ⟨_, s, rest, .single hs, by simp⟩
    · exact .inr ⟨_, .single hclosed⟩
  by_cases hdouble : c = '"'
  · subst hdouble
    rcases exists_doubled t with ⟨s, v, rest, hs, rfl⟩ | ⟨s, v, hs, rfl | rfl⟩
    · exact .inr (.inl ⟨_, v, rest, .double hs, by simp⟩)
    · exact .inr (.inr ⟨_, .double hs⟩)
    · exact .inr (.inr ⟨_, .doubleBackslash hs⟩)
  by_cases hbackslash : c = '\\'
  · subst hbackslash
    cases t with
    | nil => exact .inr (.inr ⟨_, .backslash⟩)
    | cons d t =>
      by_cases hd : d = '\n'
      · exact .inl ⟨t, by rw [hd]; rfl⟩
      · exact .inr (.inl ⟨_, _, t, .escaped hd, rfl⟩)
  · have hplain : IsPlain c := ⟨not_or.mpr ⟨hdouble, hsingle⟩, hbackslash, by simpa using hblank⟩
    exact .inr (.inl ⟨_, _, t, .plain hplain, rfl⟩)

/-- In front of a line a word stands by itself, or goes on into the first word of the line. -/
theorem Line.behind_word {t : Text} {ws : List Text} (h : Line t ws) {w u : Text} (hw : Word w u) :
    ∃ ws', Line (w ++ t) ws' := by
  induction h generalizing w u with
  | done => exact ⟨_, by rw [List.append_nil]; exact .last hw⟩
  | blank hc ht _ => exact ⟨_, .word hw hc ht⟩
  | join _ ih =>
    obtain ⟨ws', h⟩ := ih hw.join
    exact ⟨ws', by rwa [List.append_assoc] at h⟩
  | last hw' => exact ⟨_, .last (hw.append hw')⟩
  | word hw' hc ht _ =>
    have h := Line.word (hw.append hw') hc ht
    exact ⟨_, by rwa [List.append_assoc] at h⟩

/-- The line and the unfinished text go on behind what can stand in front of any line. -/
theorem goes_on (front : Text) {t : Text}
    (hfront : ∀ {t ws}, Line t ws → ∃ ws', Line (front ++ t) ws')
    (h : (∃ ws, Line t ws) ∨ ∃ fault, Unfinished fault t) :
    (∃ ws, Line (front ++ t) ws) ∨ ∃ fault, Unfinished fault (front ++ t) := by
  rcases h with ⟨ws, h⟩ | ⟨fault, ⟨h, hopen⟩⟩
  · exact .inl (hfront h)
  · obtain ⟨ws', h⟩ := hfront h
    exact .inr ⟨fault, by rw [← List.append_assoc]; exact .intro h hopen⟩

theorem line_or_unfinished (t : Text) : (∃ ws, Line t ws) ∨ ∃ fault, Unfinished fault t := by
  induction hn : t.length using Nat.strong_induction_on generalizing t with
  | h n ih =>
    cases t with
    | nil => exact .inl ⟨[], .done⟩
    | cons c t =>
      rcases exists_front c t with hc | ⟨rest, ht⟩ | ⟨s, u, rest, hs, ht⟩ | ⟨fault, hopen⟩
      · exact goes_on [c] (fun h => ⟨_, .blank hc h⟩) (ih t.length (by simp [← hn]) t rfl)
      · rw [ht] at hn ⊢
        have hshorter : rest.length < n := by
          rw [← hn, List.length_append]
          exact Nat.lt_add_of_pos_left (by decide)
        exact goes_on _ (fun h => ⟨_, .join h⟩) (ih rest.length hshorter rest rfl)
      · rw [ht] at hn ⊢
        have hpos := List.length_pos_iff.mpr hs.ne_nil
        have hshorter : rest.length < n := by
          rw [← hn, List.length_append]
          omega
        exact goes_on _ (fun h => h.behind_word (.segment hs)) (ih rest.length hshorter rest rfl)
      · have h : Unfinished fault ([] ++ c :: t) := .intro .done hopen
        exact .inr ⟨fault, h⟩

/-! ## Splitting -/

theorem Line.split {t : Text} {ws : List Text} (h : Line t ws) : split t = .ok ws := by
  obtain ⟨complete, word, rfl, hscan⟩ := h.scan
  have hend := hscan []
  rw [List.append_nil] at hend
  rw [CommandWords.split, hend]
  rfl

theorem Unfinished.split {fault : CommandFault} {t : Text} (h : Unfinished fault t) :
    split t = .error fault := by
  obtain ⟨hline, hopen⟩ := h
  obtain ⟨complete, word, -, hscan⟩ := hline.scan
  rw [CommandWords.split, hscan, hopen.scan]
  rfl

/-- A text is split into words exactly if it is a line of the grammar that denotes them, and refused
exactly if it is a line up to a quote that is not closed or a backslash at its end. -/
theorem splits_by_grammar (t : Text) : (∀ ws, split t = .ok ws ↔ Line t ws) ∧
    ∀ fault, split t = .error fault ↔ Unfinished fault t := by
  rcases line_or_unfinished t with ⟨ws, h⟩ | ⟨fault, h⟩
  · have hsplit := h.split
    refine ⟨fun ws' => ⟨fun hs => ?_, Line.split⟩, fun fault => ⟨fun hs => ?_, Unfinished.split⟩⟩
    · exact Except.ok.inj (hsplit.symm.trans hs) ▸ h
    · cases hsplit.symm.trans hs
  · have hsplit := h.split
    refine ⟨fun ws' => ⟨fun hs => ?_, Line.split⟩, fun fault' => ⟨fun hs => ?_, Unfinished.split⟩⟩
    · cases hsplit.symm.trans hs
    · exact Except.error.inj (hsplit.symm.trans hs) ▸ h

example : split "a\\ b'c'\\\n\"\\d\\\"\" '' \\\n".toList =
    .ok ["a bc\\d\"".toList, []] := by decide

/-! ## Without backslashes -/

/-- The quote that is open. -/
def Quoting.quote? : Quoting → Option Char
  | .bare => none
  | .single => some '\''
  | .double => some '"'

/-- Without backslashes the reader of directive values goes through the same states. -/
theorem toOption_scan {t : Text} (h : '\\' ∉ t) (q : Quoting) (word : Option Text) :
    (scan q word t).toOption = Words.scan q.quote? word t := by
  induction t generalizing q word with
  | nil => cases q <;> rfl
  | cons c t ih =>
    obtain ⟨hc, ht⟩ := List.ne_and_not_mem_of_not_mem_cons h
    have ih := ih ht
    cases q with
    | single =>
      by_cases hclose : c = '\''
      · rw [hclose, scan_single_close, ih]
        exact (Words.scan_close '\'' t word).symm
      · rw [scan_single_inside hclose, ih]
        exact (Words.scan_inside hclose word).symm
    | double =>
      by_cases hclose : c = '"'
      · rw [hclose, scan_double_close, ih]
        exact (Words.scan_close '"' t word).symm
      · rw [scan_double_plain hclose (Ne.symm hc), ih]
        exact (Words.scan_inside hclose word).symm
    | bare =>
      change _ = Words.scan none word (c :: t)
      by_cases hsingle : c = '\''
      · rw [hsingle, scan_openSingle, ih, Words.scan_open (.inr rfl)]
        rfl
      by_cases hdouble : c = '"'
      · rw [hdouble, scan_openDouble, ih, Words.scan_open (.inl rfl)]
        rfl
      have hquote : ¬Words.IsQuote c := not_or.mpr ⟨hdouble, hsingle⟩
      by_cases hblank : Text.isBlank c = true
      · rw [scan_blank hblank, Words.scan_blank hblank]
        have hrest := ih .bare none
        change _ = Words.scan none none t at hrest
        rw [← hrest]
        cases scan .bare none t <;> rfl
      · have hblank := eq_false_of_ne_true hblank
        rw [scan_plain ⟨hquote, Ne.symm hc, hblank⟩, ih, Words.scan_plain hquote hblank]
        rfl

/-- A text without backslashes is split into the same words as a command and as the value of a
directive, or refused as both. -/
theorem splits_as_value {t : Text} (h : '\\' ∉ t) :
    (∃ ws, split t = .ok ws ∧ Words.split t = .ok ws) ∨
      ∃ fault, split t = .error fault ∧ Words.split t = .error .unterminatedQuote := by
  have hscan : (split t).toOption = Words.split? t := toOption_scan h .bare none
  unfold Words.split
  rw [← hscan]
  cases split t with
  | ok ws => exact .inl ⟨ws, rfl, rfl⟩
  | error fault => exact .inr ⟨fault, rfl, rfl⟩

/-- Quotes of both kinds inside a word, and an empty word. -/
def mixedQuotes : Text := "it\"'\"s 'a b' ''".toList

theorem mixed_quotes_are_split_alike : '\\' ∉ mixedQuotes ∧
    split mixedQuotes = .ok ["it's".toList, "a b".toList, []] ∧
      Words.split mixedQuotes = .ok ["it's".toList, "a b".toList, []] := by
  have hno : '\\' ∉ mixedQuotes := by decide
  have hsplit : split mixedQuotes = .ok ["it's".toList, "a b".toList, []] := by decide
  refine ⟨hno, hsplit, ?_⟩
  rcases splits_as_value hno with ⟨ws, hs, hw⟩ | ⟨fault, hs, -⟩
  · rwa [Except.ok.inj (hs.symm.trans hsplit)] at hw
  · cases hs.symm.trans hsplit

end ConversationFlow.CommandWords
